import FlCoordinator.Contributions
import FlCoordinator.Sample

/-!
# The credentials of an org

`get_authenticated_org_id` takes a certificate of the federation CA, or an API key where mTLS is
not required. What the coordinator keeps in the name of an org was asked for with one of them: a
certificate that an enrollment of this org issued, or the key of its latest enrollment.
-/

namespace FlCoordinator

open Lib

/-! ### The latest enrollment -/

section Enrollments

variable {app : App} {s : Sys} {x : String}

/-- `e` enrolls the org `x`, which is unknown or revoked. -/
structure Enrolls (app : App) (s : Sys) (e : Event) (x : String) (env : EnrollEnv) : Prop where
  free : ∀ row, s.world.store.getOrg x = some row → row.status = .revoked
  row : ∃ pem en, e.enrollment = some (x, pem, env) ∧ Installs app x pem env en ∧
    (next app e s).world.store.getOrg x = some (en.row env.enrolledAt)

lemma keyHash_next {e : Event} {row : OrgRow} (hno : ∀ env, ¬Enrolls app s e x env)
    (h : (next app e s).world.store.getOrg x = some row) :
    ∃ old, s.world.store.getOrg x = some old ∧ row.apiKeyHash = old.apiKeyHash := by
  cases (next_effect app s e).rowMove x with
  | kept core =>
    rw [h, Option.map_some] at core
    obtain ⟨old, hold, hcore⟩ := Option.map_eq_some_iff.mp core.symm
    have hhash : old.core.apiKeyHash = row.core.apiKeyHash := by rw [hcore]
    exact ⟨old, hold, hhash.symm⟩
  | enrolled pem env en event free installs new =>
    exact absurd ⟨free, pem, en, event, installs, new⟩ (hno env)
  | status old st event hold new =>
    rw [h] at new
    rw [Option.some.inj new]
    exact ⟨old, hold, rfl⟩
  | left req body env old event hold asked evidence new =>
    rw [h] at new
    rw [Option.some.inj new]
    exact ⟨old, hold, rfl⟩
  | removed user env coordPriv old event key hold leaving new =>
    rw [h] at new
    rw [Option.some.inj new]
    exact ⟨old, hold, rfl⟩

/-- The enrollment with the draws `env` is the latest one of the org. -/
def LatestEnrollment (app : App) (es : List Event) (x : String) (env : EnrollEnv) : Prop :=
  ∃ pre e post, es = pre ++ e :: post ∧ Enrolls app (after app pre) e x env ∧
    ∀ p ∈ visits (next app) (next app e (after app pre)) post, ∀ env', ¬Enrolls app p.1 p.2 x env'

lemma latestEnrollment_of_row {es : List Event} {row : OrgRow}
    (h : (after app es).world.store.getOrg x = some row) :
    ∃ env, LatestEnrollment app es x env ∧
      row.apiKeyHash = app.host.sha256hex (encode env.apiKey) := by
  have h0 : ¬((init app).world.store.getOrg x).isSome := by simp [init, Store.empty, Store.getOrg]
  have hstep : ∀ t e, ((next app e t).world.store.getOrg x).isSome →
      (t.world.store.getOrg x).isSome ∨ ∃ env, Enrolls app t e x env := by
    intro t e hsome
    by_cases hno : ∃ env, Enrolls app t e x env
    · exact Or.inr hno
    · obtain ⟨new, hnew⟩ := Option.isSome_iff_exists.mp hsome
      obtain ⟨old, hold, -⟩ := keyHash_next (not_exists.mp hno) hnew
      left
      rw [hold]
      rfl
  have hsome : ((after app es).world.store.getOrg x).isSome := by rw [h]; rfl
  obtain ⟨pre, e, post, hes, ⟨env, henrolls⟩, hlast⟩ := run_last (next app)
    (F := fun t => (t.world.store.getOrg x).isSome) (G := fun t e => ∃ env, Enrolls app t e x env)
    h0 hstep es hsome
  have hno : ∀ p ∈ visits (next app) (next app e (after app pre)) post,
      ∀ env', ¬Enrolls app p.1 p.2 x env' :=
    fun p hp => not_exists.mp (hlast p hp)
  have henrolls : Enrolls app (after app pre) e x env := henrolls
  refine ⟨env, ⟨pre, e, post, hes, henrolls, hno⟩, ?_⟩
  obtain ⟨pem, en, -, hinstalls, hnew⟩ := henrolls.row
  have hkept : ∀ r, (Lib.run (next app) (next app e (after app pre)) post).world.store.getOrg x =
      some r → r.apiKeyHash = app.host.sha256hex (encode env.apiKey) := by
    apply run_invariant (next app)
      (I := fun t => ∀ r, t.world.store.getOrg x = some r →
        r.apiKeyHash = app.host.sha256hex (encode env.apiKey))
      (A := fun t f => ∀ env', ¬Enrolls app t f x env') _ _ post hno
    · intro t f hI hf r hr
      obtain ⟨old, hold, hhash⟩ := keyHash_next hf hr
      rw [hhash]
      exact hI old hold
    · intro r hr
      rw [hnew] at hr
      rw [← Option.some.inj hr]
      exact hinstalls.apiKeyHash
  have hafter : after app es = Lib.run (next app) (next app e (after app pre)) post := by
    rw [hes, after, run_append, run_cons]
    rfl
  rw [hafter] at h
  exact hkept row h

end Enrollments

/-! ### Who may act for an org -/

section Callers

variable {app : App} {x : String}

/-- The certificate was issued in an enrollment of `x`. -/
def IssuedIn (app : App) (es : List Event) (x : String) (cert : Certificate) : Prop :=
  ∃ pre e post env, es = pre ++ e :: post ∧ Enrolls app (after app pre) e x env ∧
    ∃ ca pub name, app.ca = some ca ∧
      issueClientCert app.host ca.1 ca.2 pub x name env.serial env.issuedAt = .ok cert

/-- The CA writes the requested name on a certificate. -/
def NamesOrg (host : Host) : Prop :=
  ∀ key algorithm request cert, host.signCertificate key algorithm request = .ok cert →
    cert.commonName = some request.commonName

/-- Nobody but the CA makes certificates that verify, and orgs present client certificates only. -/
def NoForgedCertificate (app : App) (es : List Event) (req : Request) : Prop :=
  ∀ caCert cert, app.caCert = some caCert → presentedCert app req = some cert →
    verifyCertSignedByCa app.host cert caCert = true → ∃ y, IssuedIn app es y cert

/-- What a request is recognised by, after the events `es`. -/
inductive Credential (app : App) (es : List Event) (req : Request) (now : ℚ) (x : String) : Prop
  | certificate (cert : Certificate) (presented : presentedCert app req = some cert)
      (issued : IssuedIn app es x cert) (valid : isCertExpired cert now = false)
      (unlisted : ∀ crl, (after app es).world.crl = some crl → cert.serialNumber ∉ crl.revoked)
  | apiKey (key : String) (env : EnrollEnv) (allowed : app.requireMtls = false)
      (sent : req.apiKey = some key) (latest : LatestEnrollment app es x env)
      (drawn : app.host.sha256hex (encode key) = app.host.sha256hex (encode env.apiKey))

lemma commonName_of_issued {caPriv : CaKey} {caCert cert : Certificate} {pub : Bytes}
    {name : Json} {serial : ℤ} {now : ℚ} (hnames : NamesOrg app.host)
    (h : issueClientCert app.host caPriv caCert pub x name serial now = .ok cert) :
    cert.commonName = some x := by
  unfold issueClientCert at h
  split at h
  · exact hnames _ _ _ _ h
  · cases h

lemma orgIdOfCert_some {w : World} {now : ℚ} {cert : Certificate}
    (h : orgIdOfCert app w now cert = some x) :
    (∃ caCert, app.caCert = some caCert ∧ verifyCertSignedByCa app.host cert caCert = true) ∧
      isCertExpired cert now = false ∧
      (∀ crl, w.crl = some crl → cert.serialNumber ∉ crl.revoked) ∧ cert.commonName = some x := by
  unfold orgIdOfCert at h
  cases hca : app.caCert with
  | none =>
    rw [hca] at h
    cases h
  | some caCert =>
    rw [hca] at h
    dsimp only at h
    split_ifs at h with hsigned hexpired hlisted
    have hname : (certOrgId cert).filter (· ≠ "") = some x := by
      cases hn : (certOrgId cert).filter (· ≠ "") with
      | none =>
        rw [hn] at h
        cases h
      | some y =>
        rw [hn] at h
        dsimp only at h
        split at h
        · cases h
        · split_ifs at h
          exact h
    refine ⟨⟨caCert, rfl, by simpa using hsigned⟩, by simpa using hexpired, ?_, ?_⟩
    · intro crl hcrl hmem
      rw [hcrl] at hlisted
      simp [isRevoked, hmem] at hlisted
    · exact (Option.filter_eq_some_iff.mp hname).1

lemma orgIdOfApiKey_some {s : Store} {key : String} (h : orgIdOfApiKey app s key = some x) :
    ∃ row, s.getOrg x = some row ∧ row.apiKeyHash = app.host.sha256hex (encode key) := by
  obtain ⟨row, hfind, rfl⟩ := Option.map_eq_some_iff.mp h
  have hmem := List.mem_of_find?_eq_some hfind
  have hrow := List.find?_some hfind
  simp only [decide_eq_true_eq] at hrow
  rw [Store.listOrgs, (List.perm_insertionSort _ _).mem_iff] at hmem
  exact ⟨row, Table.get?_of_mem hmem, hrow.2⟩

lemma credential_of_authenticated {es : List Event} {req : Request} {now : ℚ}
    (hdev : app.devHeaderAllowed = false) (hnames : NamesOrg app.host)
    (hforge : NoForgedCertificate app es req)
    (h : getAuthenticatedOrgId app req (after app es).world now = .ok x) :
    Credential app es req now x := by
  have hnone : devHeaderOrgId app req = none := by simp [devHeaderOrgId, hdev]
  unfold getAuthenticatedOrgId at h
  cases hid : extractVerifiedOrgId app req (after app es).world now with
  | some y =>
    rw [hid] at h
    obtain rfl := Except.ok.inj h
    rw [extractVerifiedOrgId, hnone] at hid
    obtain ⟨cert, hpresented, hcert⟩ := Option.bind_eq_some_iff.mp hid
    obtain ⟨⟨caCert, hca, hsigned⟩, hvalid, hunlisted, hname⟩ := orgIdOfCert_some hcert
    obtain ⟨z, hissued⟩ := hforge caCert cert hca hpresented hsigned
    have hz : z = y := by
      obtain ⟨pre, e, post, env, -, -, ca, pub, name, -, hsign⟩ := hissued
      rw [commonName_of_issued hnames hsign] at hname
      exact Option.some.inj hname
    rw [hz] at hissued
    exact .certificate cert hpresented hissued hvalid hunlisted
  | none =>
    rw [hid] at h
    dsimp only at h
    split_ifs at h with hmtls
    cases hkey : (req.apiKey.filter (· ≠ "")).bind (orgIdOfApiKey app (after app es).world.store) with
    | none =>
      rw [hkey] at h
      cases h
    | some y =>
      rw [hkey] at h
      obtain rfl := Except.ok.inj h
      obtain ⟨key, hfilter, hfound⟩ := Option.bind_eq_some_iff.mp hkey
      obtain ⟨row, hrow, hhash⟩ := orgIdOfApiKey_some hfound
      obtain ⟨env, hlatest, hdrawn⟩ := latestEnrollment_of_row hrow
      have hsent : req.apiKey = some key := (Option.filter_eq_some_iff.mp hfilter).1
      exact .apiKey key env (by simpa using hmtls) hsent hlatest (hhash.symm.trans hdrawn)

end Callers

/-! ### What is kept in the name of an org -/

section Authority

variable {app : App} {x : String} {es : List Event}

/-- The request of an event to an endpoint of orgs, and when it is authenticated. -/
def Event.asks : Event → Option (Request × ℚ)
  | .challenge req _ env => some (req, env.authAt)
  | .contribute c => some (c.req, c.authAt)
  | .leaveRequest req _ _ env => some (req, env.authAt)
  | _ => none

/-- Nobody forges a certificate for any request of the run. -/
def NoForgedCertificates (app : App) (es : List Event) : Prop :=
  ∀ pre e post, es = pre ++ e :: post → ∀ req now, e.asks = some (req, now) →
    NoForgedCertificate app pre req

/-- A step of the run with `Q` was asked for by the org `x`, active at the time, with a credential
of it. -/
def AskedFor (app : App) (es : List Event) (x : String) (Q : Event → Prop) : Prop :=
  ∃ pre e post req now, es = pre ++ e :: post ∧ Q e ∧ e.asks = some (req, now) ∧
    (∃ row, (after app pre).world.store.getOrg x = some row ∧ row.status = .active) ∧
    Credential app pre req now x

lemma askedFor_of_step (hdev : app.devHeaderAllowed = false) (hnames : NamesOrg app.host)
    (hforge : NoForgedCertificates app es) {Q : Event → Prop} {pre post : List Event} {e : Event}
    {req : Request} {now : ℚ} (hes : es = pre ++ e :: post) (hQ : Q e)
    (hasks : e.asks = some (req, now))
    (h : getAuthenticatedOrgId app req (after app pre).world now = .ok x) :
    AskedFor app es x Q :=
  ⟨pre, e, post, req, now, hes, hQ, hasks, active_of_authenticated hdev h,
    credential_of_authenticated hdev hnames (hforge pre e post hes req now hasks) h⟩

/-- The challenge is one of `x` for the round `k`. -/
def ChallengeOf (text x : String) (k : ℤ) (s : Sys) : Prop :=
  ∃ row, s.world.store.challenges.get? text = some row ∧ row.orgId = x ∧ row.roundId = k

lemma challengeOf_next {s : Sys} {e : Event} {text : String} {k : ℤ}
    (h : ChallengeOf text x k (next app e s)) : ChallengeOf text x k s ∨
      ∃ req env, e = .challenge req k env ∧ env.challenge = text ∧
        getAuthenticatedOrgId app req s.world env.authAt = .ok x := by
  obtain ⟨row, hrow, horg, hround⟩ := h
  cases (next_effect app s e).challengeMove text with
  | kept same =>
    rw [hrow] at same
    exact Or.inl ⟨row, same.symm, horg, hround⟩
  | issued req env row' event drawn caller fresh new =>
    rw [hrow] at new
    rw [← Option.some.inj new, horg] at caller
    rw [← Option.some.inj new, hround] at event
    exact Or.inr ⟨req, env, event, drawn, caller⟩
  | consumed row' now old new =>
    rw [hrow] at new
    rw [Option.some.inj new] at horg hround
    exact Or.inl ⟨row', old, horg, hround⟩

lemma contribution_asked (hdev : app.devHeaderAllowed = false) (hnames : NamesOrg app.host)
    (hforge : NoForgedCertificates app es) {c : ContributionRow}
    (h : c ∈ (after app es).world.store.contributions.rows) :
    AskedFor app es c.orgId (fun e => ∃ r, e = .contribute r ∧ r.roundId = c.roundId ∧
      encode r.attestation = c.signedAttestation) := by
  have hstep : ∀ s e, c ∈ (next app e s).world.store.contributions.rows →
      c ∈ s.world.store.contributions.rows ∨
      ∃ p ∈ s.inFlight, p.orgId = c.orgId ∧ p.roundId = c.roundId ∧
        p.attBytes = c.signedAttestation := by
    intro s e hc
    rcases (next_effect app s e).recorded hc with
      hc | ⟨i, env, p, -, hp, -, ⟨n, hrow⟩ | ⟨chal, n, -, hrow⟩⟩
    · exact Or.inl hc
    · right
      rw [hrow]
      exact ⟨p, List.mem_of_getElem? hp, rfl, rfl, rfl⟩
    · right
      rw [hrow]
      exact ⟨p, List.mem_of_getElem? hp, rfl, rfl, rfl⟩
  obtain ⟨pre, e, post, hes, p, hp, horg, hround, hatt⟩ := run_origin (next app)
    (F := fun s => c ∈ s.world.store.contributions.rows) (by simp [init, Store.empty]) hstep es h
  obtain ⟨before, r, between, hpre, hscreened⟩ := received_of_inFlight hp
  obtain ⟨hr, hbytes, -, -⟩ := hscreened.request
  have hcaller := hscreened.caller
  rw [horg] at hcaller
  have hsplit : es = before ++ .contribute r :: (between ++ e :: post) := by
    rw [hes, hpre]
    simp
  exact askedFor_of_step hdev hnames hforge hsplit
    ⟨r, rfl, hr.symm.trans hround, hbytes.symm.trans hatt⟩ rfl hcaller

/-- `att` is the leave attestation of `x`. -/
def AskedToLeave (x : String) (att : Bytes) (s : Sys) : Prop :=
  ∃ row, s.world.store.getOrg x = some row ∧ row.leaveAttestation = some att

lemma askedToLeave_next {s : Sys} {e : Event} {att : Bytes}
    (h : AskedToLeave x att (next app e s)) : AskedToLeave x att s ∨
      ∃ req body env, e = .leaveRequest req x body env ∧ encode body.attestation = att ∧
        getAuthenticatedOrgId app req s.world env.authAt = .ok x := by
  obtain ⟨row, hrow, hatt⟩ := h
  cases (next_effect app s e).rowMove x with
  | kept core =>
    rw [hrow, Option.map_some] at core
    obtain ⟨old, hold, hcore⟩ := Option.map_eq_some_iff.mp core.symm
    have hleave : old.core.leaveAttestation = row.core.leaveAttestation := by rw [hcore]
    exact Or.inl ⟨old, hold, hleave.trans hatt⟩
  | enrolled pem env en event free installs new =>
    rw [hrow] at new
    rw [Option.some.inj new] at hatt
    cases hatt
  | status old st event hold new =>
    rw [hrow] at new
    rw [Option.some.inj new] at hatt
    exact Or.inl ⟨old, hold, hatt⟩
  | left req body env old event hold asked evidence new =>
    subst event
    obtain ⟨-, -, ⟨-, hkept⟩ | ⟨hauth, -⟩⟩ := orgLeaveRequest_spec app s.world req x body env
    · -- the request is refused
      have hsame : (next app (.leaveRequest req x body env) s).world.store.getOrg x =
          s.world.store.getOrg x := congrArg (fun w => w.store.getOrg x) hkept
      rw [hsame] at hrow
      exact Or.inl ⟨row, hrow, hatt⟩
    · rw [hrow] at new
      rw [Option.some.inj new] at hatt
      exact Or.inr ⟨req, body, env, rfl, Option.some.inj hatt, hauth⟩
  | removed user env coordPriv old event key hold leaving new =>
    rw [hrow] at new
    rw [Option.some.inj new] at hatt
    exact Or.inl ⟨old, hold, hatt⟩

/-- Over every run, each challenge, each contribution and each leave request was asked for by the
org it belongs to, which was active then and sent a certificate that one of its enrollments issued,
in its year and not on the revocation list, or, where mTLS is not required, the API key of its
latest enrollment. -/
theorem org_authority (hdev : app.devHeaderAllowed = false) (hnames : NamesOrg app.host)
    (hforge : NoForgedCertificates app es) :
    (∀ text row, (after app es).world.store.challenges.get? text = some row →
      AskedFor app es row.orgId (fun e => ∃ req env, e = .challenge req row.roundId env ∧
        env.challenge = text)) ∧
    (∀ c ∈ (after app es).world.store.contributions.rows,
      AskedFor app es c.orgId (fun e => ∃ r, e = .contribute r ∧ r.roundId = c.roundId ∧
        encode r.attestation = c.signedAttestation)) ∧
    ∀ x att, AskedToLeave x att (after app es) →
      AskedFor app es x (fun e => ∃ req body env, e = .leaveRequest req x body env ∧
        encode body.attestation = att) := by
  refine ⟨?_, fun c h => contribution_asked hdev hnames hforge h, ?_⟩
  · intro text row h
    have h0 : ¬ChallengeOf text row.orgId row.roundId (init app) := by
      simp [ChallengeOf, init, Store.empty]
    obtain ⟨pre, e, post, hes, req, env, rfl, htext, hauth⟩ :=
      run_origin (next app) h0 (fun _ _ => challengeOf_next) es ⟨row, h, rfl, rfl⟩
    exact askedFor_of_step hdev hnames hforge hes ⟨req, env, rfl, htext⟩ rfl hauth
  · intro x att h
    have h0 : ¬AskedToLeave x att (init app) := by
      simp [AskedToLeave, init, Store.empty, Store.getOrg]
    obtain ⟨pre, e, post, hes, req, body, env, rfl, hatt, hauth⟩ :=
      run_origin (next app) h0 (fun _ _ => askedToLeave_next) es h
    exact askedFor_of_step hdev hnames hforge hes ⟨req, body, env, rfl, hatt⟩ rfl hauth

/-- An org is enrolled, and uploads a model over a connection with its certificate. -/
def Sample.certifiedUpload : List Event :=
  [Sample.enroll "x" [1] 11, Sample.start none, Sample.challenge "a" (Sample.certOf "x" [1] 11),
    Sample.contribute "x" "a" [1] 11 Sample.model, Sample.resume]

lemma Sample.issued_certOf (later : List Event) :
    IssuedIn Sample.app (Sample.enroll "x" [1] 11 :: later) "x" (Sample.certOf "x" [1] 11) := by
  have hsome : ((next Sample.app (Sample.enroll "x" [1] 11) (init Sample.app)).world.store.getOrg
      "x").isSome := by decide +kernel
  have henrolls : ∃ env, Enrolls Sample.app (init Sample.app) (Sample.enroll "x" [1] 11) "x" env := by
    by_contra hno
    obtain ⟨row, hrow⟩ := Option.isSome_iff_exists.mp hsome
    obtain ⟨old, hold, -⟩ := keyHash_next (not_exists.mp hno) hrow
    simp [init, Store.empty, Store.getOrg] at hold
  obtain ⟨env, henrolls⟩ := henrolls
  have henv : env = Sample.enrollEnv 11 := by
    obtain ⟨pem, en, hevent, -⟩ := henrolls.row
    exact (Prod.mk.inj (Prod.mk.inj (Option.some.inj hevent)).2).2.symm
  have hsign : issueClientCert Sample.host (.ed25519 Sample.caKey) Sample.caCert [1] "x"
      (.str "Org") 11 60 = .ok (Sample.certOf "x" [1] 11) := by decide +kernel
  subst henv
  exact ⟨[], _, later, _, rfl, henrolls, (.ed25519 Sample.caKey, Sample.caCert), [1], .str "Org", rfl,
    hsign⟩

lemma Sample.certifiedUpload_noForgedCertificates :
    NoForgedCertificates Sample.app Sample.certifiedUpload := by
  intro pre e post hes req now hasks caCert cert hca hpresented hsigned
  have hcert : presentedCert Sample.app (Sample.present (Sample.certOf "x" [1] 11)) =
      some (Sample.certOf "x" [1] 11) := by decide +kernel
  cases pre with
  | nil =>
    rw [← (List.cons.inj hes).1] at hasks
    cases hasks
  | cons a pre =>
    obtain ⟨ha, hrest⟩ := List.cons.inj hes
    have he : e ∈ Sample.certifiedUpload.tail := by
      rw [show Sample.certifiedUpload.tail = pre ++ e :: post from hrest]
      simp
    have hreq : req = Sample.present (Sample.certOf "x" [1] 11) := by
      simp only [Sample.certifiedUpload, List.tail_cons, List.mem_cons, List.not_mem_nil,
        or_false] at he
      rcases he with rfl | rfl | rfl | rfl
      · cases hasks
      · exact (Prod.mk.inj (Option.some.inj hasks)).1.symm
      · exact (Prod.mk.inj (Option.some.inj hasks)).1.symm
      · cases hasks
    rw [hreq, hcert] at hpresented
    rw [← ha, ← Option.some.inj hpresented]
    exact ⟨"x", Sample.issued_certOf pre⟩

theorem org_authority_certifiedUpload :
    ∃ c ∈ (after Sample.app Sample.certifiedUpload).world.store.contributions.rows,
      AskedFor Sample.app Sample.certifiedUpload c.orgId (fun e => ∃ r, e = .contribute r ∧
        r.roundId = c.roundId ∧ encode r.attestation = c.signedAttestation) := by
  have hrows : (after Sample.app Sample.certifiedUpload).world.store.contributions.rows.length =
      1 := by decide +kernel
  obtain ⟨c, hc⟩ := List.length_eq_one_iff.mp hrows
  have hmem : c ∈ (after Sample.app Sample.certifiedUpload).world.store.contributions.rows := by
    rw [hc]
    exact List.mem_singleton_self c
  have hnames : NamesOrg Sample.app.host := by
    intro key algorithm request cert h
    rw [← Except.ok.inj h]
  have h := org_authority rfl hnames Sample.certifiedUpload_noForgedCertificates
  exact ⟨c, hmem, h.2.1 c hmem⟩

end Authority

end FlCoordinator
