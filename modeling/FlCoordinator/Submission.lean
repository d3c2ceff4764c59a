import FlCoordinator.Client
import FlCoordinator.Intake
import FlCoordinator.Refusals
import FlCoordinator.Tolerance

/-!
# Uploads and downloads of the reference client

The other half of `client_ref/fl_client.py`: how an org fetches a challenge, signs its model and
uploads it. An upload that the client makes is accepted, and a published model arrives as it was
merged, whatever other requests come in between.
-/

namespace FlCoordinator

open Lib Handler

section Definitions

variable (host : Host)

/-- `str(v)`. -/
def pyStr : Json → String
  | .str s => s
  | v => host.strOf v

/-- `build_signed_contribution`, with the time of the client's clock in ISO format. -/
def buildSignedContribution (load : Bytes → Except PyErr CaKey)
    (orgPrivateKeyPem : Bytes) (roundId : ℤ) (orgId : String) (modelBytes : Bytes)
    (numExamples : ℤ) (challenge : Json) (now : String) : Except PyErr (Bytes × String) := do
  let priv ← privateKeyFromPem load orgPrivateKeyPem
  let att := buildContributionAttestation host roundId orgId modelBytes numExamples
    (pyStr host challenge) now
  .ok (att, toHex (sign host priv att))

/-- The form that an upload posts. -/
structure UploadForm where
  model : Bytes
  attestation : String
  signature : String

/-- A client that uploads, with the identity and the key of its org. -/
structure OrgClient extends FLClient where
  orgId : String
  orgPrivateKeyPem : Bytes

/-- `get_challenge`, where `network` answers a `GET` of a URL. -/
def OrgClient.getChallenge (client : OrgClient) (network : String → HttpResponse) (roundId : ℤ) :
    Except PyErr Json := do
  let r := network s!"{client.baseUrl}/fl/rounds/{intStr roundId}/challenge"
  let _ ← r.raiseForStatus
  let body ← r.json
  body.item "challenge"

/-- `submit_contribution`, up to its `POST`. -/
def OrgClient.contributionForm (client : OrgClient) (load : Bytes → Except PyErr CaKey)
    (network : String → HttpResponse) (roundId : ℤ) (modelBytes : Bytes) (numExamples : ℤ)
    (now : String) : Except PyErr UploadForm := do
  let challenge ← client.getChallenge network roundId
  let (att, sigHex) ← buildSignedContribution host load client.orgPrivateKeyPem roundId
    client.orgId modelBytes numExamples challenge now
  match Json.decodeUtf8 att with
  | none => .error .unicodeDecodeError
  | some text => .ok { model := modelBytes, attestation := String.ofList text, signature := sigHex }

/-- `submit_contribution`, where `post` answers a `POST` of a form to a URL. -/
def OrgClient.submitContribution (client : OrgClient) (load : Bytes → Except PyErr CaKey)
    (network : String → HttpResponse) (post : String → UploadForm → HttpResponse) (roundId : ℤ)
    (modelBytes : Bytes) (numExamples : ℤ) (now : String) : Except PyErr Json := do
  let form ← client.contributionForm host load network roundId modelBytes numExamples now
  let r := post s!"{client.baseUrl}/fl/rounds/{intStr roundId}/contribute" form
  let _ ← r.raiseForStatus
  r.json

/-- The body of an issued challenge. -/
def challengeBody (challenge : String) (expiresAt : Json) : Json :=
  .obj [("challenge", .str challenge), ("expires_at", expiresAt)]

/-- The body of an accepted upload. -/
def ContributionResponse.body (r : ContributionResponse) : Json :=
  .obj [
    ("contribution_id", .int r.contributionId),
    ("accepted", .bool true),
    ("round_id", .int r.roundId),
    ("org_id", .str r.orgId),
    ("model_sha256", .str r.modelSha256)]

/-- What FastAPI answers: the body of a result, the status of an `HTTPException`, or a 500. -/
def httpAnswer {α : Type} (status : ℕ) (body : α → Json) : Except Failure α → HttpResponse
  | .ok a => ⟨status, .ok (body a)⟩
  | .error (.http status detail) => ⟨status, .ok (.obj [("detail", .str detail)])⟩
  | .error (.uncaught _) => ⟨500, .error (.jsonDecodeError "Internal Server Error")⟩

/-- The request that carries a form. -/
def UploadForm.request (form : UploadForm) (req : Request) (roundId : ℤ) (authAt : ℚ) :
    ContributeRequest :=
  { req, roundId, attestation := form.attestation, signature := form.signature,
    upload := form.model, authAt }

end Definitions

/-! ### The form of a client -/

section Form

variable {host : Host} {client : OrgClient} {load : Bytes → Except PyErr CaKey}
  {network : String → HttpResponse} {k n : ℤ} {modelBytes : Bytes} {now challenge : String}
  {expiresAt : Json} {form : UploadForm}

/-- The fields that a contribution signs. -/
def contributionPayload (host : Host) (k : ℤ) (orgId : String) (modelBytes : Bytes) (n : ℤ)
    (challenge now : String) : List (String × Json) :=
  [("type", .str "fl.contribution.v1"),
    ("round_id", .int k),
    ("org_id", .str orgId),
    ("model_sha256", .str (host.sha256hex modelBytes)),
    ("num_examples", .int n),
    ("challenge", .str challenge),
    ("submitted_at", .str now)]

lemma plain_contribution (orgId : String) :
    Json.Plain (.obj (contributionPayload host k orgId modelBytes n challenge now)) :=
  Json.plain_obj.mpr ⟨by simp [contributionPayload], by simp [contributionPayload, Json.Plain]⟩

/-- The contribution as the coordinator parses it. -/
def contributionFields (host : Host) (k : ℤ) (orgId : String) (modelBytes : Bytes) (n : ℤ)
    (challenge now : String) : Json :=
  Json.sortKeys (.obj (contributionPayload host k orgId modelBytes n challenge now))

lemma modest_of_bindInt {m : ℤ} (h : Host.bindInt m = .ok m) : Json.Modest (.int m) := by
  unfold Host.bindInt at h
  split_ifs at h with hfits
  change m.natAbs ≤ 2 ^ 64
  omega

lemma loads_contribution (py : Python) (hk : Host.bindInt k = .ok k) (hn : Host.bindInt n = .ok n)
    (orgId : String) :
    py.loads (buildContributionAttestation host k orgId modelBytes n challenge now) =
      .ok (contributionFields host k orgId modelBytes n challenge now) := by
  apply loads_flat_canonicalJson
  · simp
  · simp only [List.mem_cons, List.not_mem_nil, or_false]
    rintro p (rfl | rfl | rfl | rfl | rfl | rfl | rfl)
    · trivial
    · exact modest_of_bindInt hk
    · trivial
    · trivial
    · exact modest_of_bindInt hn
    · trivial
    · trivial

lemma item_contribution {orgId key : String} {v : Json}
    (hfield : Json.field? key (contributionPayload host k orgId modelBytes n challenge now) = some v)
    (hv : Json.sortKeys v = v) :
    (contributionFields host k orgId modelBytes n challenge now).item key = .ok v ∧
      (contributionFields host k orgId modelBytes n challenge now).contains key = .ok true := by
  have hplain : Json.Plain (.obj (contributionPayload host k orgId modelBytes n challenge now)) :=
    plain_contribution orgId
  obtain ⟨gs, hgs, hget⟩ := Json.get_sortKeys key (Json.plain_obj.mp hplain).1
  rw [hfield, Option.map_some, hv] at hget
  have hfind := hget
  rw [Json.field?, Option.map_eq_some_iff] at hfind
  obtain ⟨p, hp, -⟩ := hfind
  rw [contributionFields, hgs]
  constructor
  · rw [Json.item, hget]
  · rw [Json.contains, List.any_eq_true.mpr ⟨p, List.mem_of_find?_eq_some hp, List.find?_some hp⟩]

lemma addressed_contribution (orgId : String) :
    Addressed (contributionFields host k orgId modelBytes n challenge now) orgId := by
  constructor
  · intro key hkey
    simp only [requiredFields, List.mem_cons, List.not_mem_nil, or_false] at hkey
    rcases hkey with rfl | rfl | rfl | rfl | rfl | rfl | rfl
    all_goals exact (item_contribution rfl rfl).2
  · exact (item_contribution rfl rfl).1
  · exact (item_contribution rfl rfl).1

lemma contributionForm_ok {status : ℕ} (hstatus : status < 400)
    (hnetwork : network s!"{client.baseUrl}/fl/rounds/{intStr k}/challenge" =
      ⟨status, .ok (challengeBody challenge expiresAt)⟩)
    (h : client.contributionForm host load network k modelBytes n now = .ok form) :
    ∃ priv, privateKeyFromPem load client.orgPrivateKeyPem = .ok priv ∧ form.model = modelBytes ∧
      encode form.attestation =
        buildContributionAttestation host k client.orgId modelBytes n challenge now ∧
      form.signature = toHex (sign host priv
        (buildContributionAttestation host k client.orgId modelBytes n challenge now)) := by
  have hchallenge : client.getChallenge network k = .ok (.str challenge) := by
    rw [OrgClient.getChallenge, hnetwork]
    simp only [HttpResponse.raiseForStatus]
    rw [if_neg (by omega)]
    rfl
  obtain ⟨v, hv, h⟩ := bind_eq_ok.mp h
  cases hchallenge.symm.trans hv
  obtain ⟨⟨att, sigHex⟩, hsigned, h⟩ := bind_eq_ok.mp h
  obtain ⟨priv, hpriv, hsigned⟩ := bind_eq_ok.mp hsigned
  obtain ⟨rfl, rfl⟩ := Prod.mk.inj (Except.ok.inj hsigned)
  dsimp only at h
  use priv
  cases htext : Json.decodeUtf8
      (buildContributionAttestation host k client.orgId modelBytes n challenge now) with
  | none =>
    rw [pyStr, htext] at h
    cases h
  | some text =>
    rw [pyStr, htext] at h
    cases h
    refine ⟨hpriv, rfl, ?_, rfl⟩
    have hback := encode_decode_canonicalJson
      (.obj (contributionPayload host k client.orgId modelBytes n challenge now))
    change encode (String.ofList ((Json.decodeUtf8 (buildContributionAttestation host k client.orgId
      modelBytes n challenge now)).getD [])) = _ at hback
    rw [htext] at hback
    exact hback

end Form

/-! ### The challenge waits for its upload -/

section Waiting

variable {app : App} {s : Sys} {row : ChallengeRow}

/-- The event goes on with an upload of the org to the round that names the challenge. -/
def GoesOn (app : App) (s : Sys) (e : Event) (row : ChallengeRow) : Prop :=
  ∃ i env p v, e = .resume i env ∧ s.inFlight[i]? = some p ∧ p.orgId = row.orgId ∧
    p.roundId = row.roundId ∧ p.att.item "challenge" = .ok v ∧
    app.host.bindText v = .ok (some row.challenge)

lemma challenge_next {e : Event} (h : s.world.store.challenges.get? row.challenge = some row)
    (hno : ¬GoesOn app s e row) :
    (next app e s).world.store.challenges.get? row.challenge = some row := by
  have heffect := next_effect app s e
  generalize (next app e s).world = t at heffect
  have hkept : ∀ {burnt : String} {now : ℚ} {p : Pending} {i : ℕ} {env : ContributeEnv},
      e = .resume i env → s.inFlight[i]? = some p →
      ConsumesChallenge app p env s.world burnt →
      (s.world.store.consumeChallengeRow burnt now).challenges.get? row.challenge = some row := by
    intro burnt now p i env he hp hconsumes
    rw [Store.get?_consumeChallengeRow, if_neg, h]
    rintro rfl
    obtain ⟨old, hkey, hold, horg, hround, -⟩ :=
      Store.consumeChallenge_ok (Prod.ext hconsumes.granted rfl)
    rw [← Option.some.inj hkey, h] at hold
    obtain rfl := Option.some.inj hold
    obtain ⟨v, hv, hnamed⟩ := hconsumes.named
    exact hno ⟨i, env, p, v, he, hp, horg.symm, hround.symm, hv, hnamed⟩
  by_cases hw : .challenges ∈ e.writes
  · cases heffect with
    | idle store crl => rw [store, h]
    | challenge done crl =>
      obtain ⟨orgId, -, -, hissue⟩ := done.caller
      obtain ⟨challenges, hstore, hfresh, hget⟩ := Store.issueChallenge_ok hissue
      rw [hstore]
      change challenges.get? row.challenge = some row
      rw [hget, if_neg, h]
      intro hdrawn
      rw [hdrawn, h] at hfresh
      cases hfresh
    | finish p r pending outcome =>
      cases outcome with
      | refused e no => exact h
      | burned e t no burnt consumes store files crl =>
        rw [store]
        exact hkept rfl pending consumes
      | rejected e t no burnt n consumes store files crl =>
        rw [store]
        exact hkept rfl pending consumes
      | accepted resp t chal n evidence store files crl =>
        rw [store]
        exact hkept rfl pending evidence.consumesChallenge
    | _ => simp [Event.writes] at hw
  · rw [heffect.frame.challenges hw, h]

lemma challenge_run (es : List Event)
    (h : s.world.store.challenges.get? row.challenge = some row)
    (hno : ∀ q ∈ visits (next app) s es, ¬GoesOn app q.1 q.2 row) :
    (Lib.run (next app) s es).world.store.challenges.get? row.challenge = some row :=
  run_invariant (next app) (I := fun t => t.world.store.challenges.get? row.challenge = some row)
    (A := fun t e => ¬GoesOn app t e row) (fun _ _ => challenge_next) h es hno

/-- The row that a challenge request leaves. -/
def issuedRow (orgId : String) (k : ℤ) (env : ChallengeEnv) : ChallengeRow where
  challenge := env.challenge
  orgId
  roundId := k
  issuedAt := env.issuedAt
  expiresAt := env.issuedAt + 600
  consumed := false
  consumedAt := none

lemma issueRoundChallenge_ok {req : Request} {k : ℤ} {env : ChallengeEnv} {w : World}
    {answer : String × ℚ} {orgId : String}
    (hauth : getAuthenticatedOrgId app req w env.authAt = .ok orgId)
    (h : (issueRoundChallenge app req k env w).1 = .ok answer) :
    answer = (env.challenge, env.issuedAt + 600) ∧ Host.bindInt k = .ok k ∧
      (issueRoundChallenge app req k env w).2.store.challenges.get? env.challenge =
        some (issuedRow orgId k env) := by
  have hspec : (issueRoundChallenge app req k env).wp (fun r t => ∀ answer, r = .ok answer →
      answer = (env.challenge, env.issuedAt + 600) ∧ Host.bindInt k = .ok k ∧
      t.store.challenges.get? env.challenge = some (issuedRow orgId k env)) w := by
    have hfail : ∀ (e : Failure) (t : World) (answer : String × ℚ),
        (Except.error e : Except Failure (String × ℚ)) = .ok answer →
        answer = (env.challenge, env.issuedAt + 600) ∧ Host.bindInt k = .ok k ∧
        t.store.challenges.get? env.challenge = some (issuedRow orgId k env) := by
      intro e t answer hans
      cases hans
    unfold issueRoundChallenge requireRunning
    apply wp_authenticate_ok hauth
    apply wp_requireRound_fits_bind (fun e => hfail e w)
    intro r hfit _
    apply wp_ensure_bind (fun _ => hfail _ w)
    intro _
    apply wp_query_bind
    apply wp_ensure_bind (fun _ => hfail _ w)
    intro _
    apply wp_tryExecute_bind (fun e _ => hfail _ w)
    intro s hs answer hans
    obtain ⟨challenges, rfl, -, hget⟩ := Store.issueChallenge_ok hs
    have hnew := hget env.challenge
    rw [if_pos rfl] at hnew
    exact ⟨(Except.ok.inj hans).symm, hfit, hnew⟩
  exact hspec answer h

end Waiting

/-! ### The upload is accepted -/

section Delivery

variable {app : App}

lemma recordRow_id {p : Pending} {sha challenge : String} {accepted : Bool}
    {modelPath rejectionReason : Option String} {now : ℚ} (v : World) :
    (recordRow p sha challenge accepted modelPath rejectionReason now).wp
      (fun r _ => ∀ id, r = .ok id → id = v.store.contributions.seq + 1) v := by
  have hfail : ∀ (e : Failure) (id : ℤ), (Except.error e : Except Failure ℤ) = .ok id →
      id = v.store.contributions.seq + 1 := by
    intro e id h
    cases h
  unfold recordRow
  apply wp_attempt_bind (fun _ _ => hfail _)
  intro x _
  apply wp_attempt_bind (fun _ _ => hfail _)
  intro n _
  apply wp_attempt_bind (fun _ _ => hfail _)
  intro m _ id h
  exact (Except.ok.inj h).symm

lemma consumeChallenge_contributions (s : Store) (challenge : Option String) (orgId : String)
    (k : ℤ) (now : ℚ) :
    (s.consumeChallenge challenge orgId k now).2.contributions = s.contributions := by
  unfold Store.consumeChallenge
  split
  · rfl
  · split_ifs <;> rfl

lemma contributeFinish_response {p : Pending} {env : ContributeEnv} {w : World} :
    (contributeFinish app p env).wp (fun r _ => ∀ resp, r = .ok resp →
      resp = ⟨w.store.contributions.seq + 1, p.roundId, p.orgId,
        app.host.sha256hex p.upload⟩) w := by
  have hfail : ∀ (e : Failure) (resp : ContributionResponse),
      (Except.error e : Except Failure ContributionResponse) = .ok resp →
      resp = ⟨w.store.contributions.seq + 1, p.roundId, p.orgId,
        app.host.sha256hex p.upload⟩ := by
    intro e resp h
    cases h
  unfold contributeFinish
  apply wp_ensure_bind (fun _ => hfail _)
  intro _
  apply wp_attempt_bind (fun _ _ => hfail _)
  intro claimed _
  apply wp_ensure_bind (fun _ => hfail _)
  intro _
  apply wp_attempt_bind (fun _ _ => hfail _)
  intro text _
  apply wp_attempt_bind (fun _ _ => hfail _)
  intro sent _
  apply wp_ensure_bind (fun _ => hfail _)
  intro _
  apply wp_attempt_bind (fun _ _ => hfail _)
  intro chal _
  apply wp_attempt_bind (fun _ _ => hfail _)
  intro chalText _
  apply wp_insert_bind
  have hrows := consumeChallenge_contributions w.store chalText p.orgId p.roundId env.consumedAt
  generalize w.store.consumeChallenge chalText p.orgId p.roundId env.consumedAt = out at hrows ⊢
  apply wp_ensure_bind (fun _ => hfail _)
  intro _
  apply wp_query_bind
  apply wp_orRaise_bind (fun _ => hfail _)
  intro pem _
  apply wp_attempt_bind (fun _ _ => hfail _)
  intro pub _
  apply wp_orRaise_bind (fun _ => hfail _)
  intro sig _
  by_cases hver : verify app.host pub p.attBytes sig = false
  · rw [if_pos hver]
    apply wp_call_bind (recordRow_id _) (fun _ _ _ => hfail _)
    intro id t _
    exact hfail _
  · rw [if_neg hver]
    apply wp_writeFile_bind
    apply wp_call_bind (recordRow_id _) (fun _ _ _ => hfail _)
    intro id t hid
    apply wp_attempt_bind (fun _ _ => hfail _)
    intro count _
    apply wp_attempt_bind (fun _ _ => hfail _)
    intro n _
    apply wp_log_bind
    intro resp hresp
    rw [← Except.ok.inj hresp, hid id rfl, ← hrows]
    rfl

lemma contributeFinish_admissible {p : Pending} {env : ContributeEnv} {w : World}
    (h : Admissible app p env w) :
    (contributeFinish app p env w).1 = .ok ⟨w.store.contributions.seq + 1, p.roundId, p.orgId,
      app.host.sha256hex p.upload⟩ := by
  obtain ⟨chal, n, hev⟩ := h
  have hspec : FinishOutcome app p env w (contributeFinish app p env w).1
      (contributeFinish app p env w).2 := contributeFinish_spec
  have hresponse : ∀ resp, (contributeFinish app p env w).1 = .ok resp →
      resp = ⟨w.store.contributions.seq + 1, p.roundId, p.orgId,
        app.host.sha256hex p.upload⟩ := contributeFinish_response
  generalize (contributeFinish app p env w).1 = r at hspec hresponse ⊢
  generalize (contributeFinish app p env w).2 = t at hspec
  cases hspec with
  | refused e no => exact absurd hev.consumesChallenge (no _)
  | burned e t no burnt consumes store files crl => exact absurd ⟨chal, n, hev⟩ no
  | rejected e t no burnt n consumes store files crl => exact absurd ⟨chal, _, hev⟩ no
  | accepted resp t chal n evidence store files crl => rw [hresponse resp rfl]

/-- The private key of a client, and what its signatures are good for. -/
structure Signs (host : Host) (load : Bytes → Except PyErr CaKey) (client : OrgClient)
    (priv : Bytes) : Prop where
  loaded : privateKeyFromPem load client.orgPrivateKeyPem = .ok priv
  correct : ∀ msg, verify host (host.ed25519Public priv) msg (sign host priv msg) = true

/-- What a client and the coordinator exchange: the client asks for a challenge in the state after
`before`, and posts its form in the state after `mid`. -/
structure Exchange (app : App) (load : Bytes → Except PyErr CaKey) (client : OrgClient)
    (k n : ℤ) (modelBytes : Bytes) (now : String) where
  before : List Event
  req : Request
  issue : ChallengeEnv
  mid : List Event
  network : String → HttpResponse
  number : ℚ → Json
  form : UploadForm
  postReq : Request
  postAt : ℚ
  asked : getAuthenticatedOrgId app req (after app before).world issue.authAt = .ok client.orgId
  answered : network s!"{client.baseUrl}/fl/rounds/{intStr k}/challenge" =
    httpAnswer 200 (fun a : String × ℚ => challengeBody a.1 (number a.2))
      (issueRoundChallenge app req k issue (after app before).world).1
  built : client.contributionForm app.host load network k modelBytes n now = .ok form

namespace Exchange

variable {load : Bytes → Except PyErr CaKey} {client : OrgClient} {k n : ℤ}
  {modelBytes : Bytes} {now : String}

/-- The events up to the upload. -/
def events (x : Exchange app load client k n modelBytes now) : List Event :=
  x.before ++ .challenge x.req k x.issue :: x.mid

/-- The request that uploads the form. -/
def upload (x : Exchange app load client k n modelBytes now) : ContributeRequest :=
  x.form.request x.postReq k x.postAt

/-- The upload as the coordinator suspends it. -/
def pending (x : Exchange app load client k n modelBytes now) : Pending :=
  pendingOf x.upload client.orgId
    (contributionFields app.host k client.orgId modelBytes n x.issue.challenge now)

/-- The coordinator receives the upload from the authenticated org while the round is running and
nothing of the org is accepted, with a count of 64 bits. -/
structure Posted (x : Exchange app load client k n modelBytes now) : Prop where
  caller : getAuthenticatedOrgId app x.postReq (after app x.events).world x.postAt =
    .ok client.orgId
  running : RoundRunning (after app x.events).world.store k
  first : (after app x.events).world.store.hasAcceptedContribution k client.orgId = false
  count : Host.bindInt n = .ok n

/-- The coordinator goes on with the upload in time: the model is not too large, the clocks agree,
the challenge has not expired, and the key of the client is registered. -/
structure InTime (x : Exchange app load client k n modelBytes now) (priv : Bytes)
    (env : ContributeEnv) (w : World) : Prop where
  size : (modelBytes.length : ℤ) ≤ app.maxModelBytes
  fresh : ∃ sent, submittedAt app.host (.str now) = .ok sent ∧ drift env.checkedAt sent ≤ 300
  live : env.consumedAt < x.issue.issuedAt + 600
  key : ∃ pem, w.store.getOrgPublicKey client.orgId = some pem ∧
    publicKeyFromPem app.host (encode pem) = .ok (app.host.ed25519Public priv)

/-- What the coordinator has of an upload. -/
structure Received (x : Exchange app load client k n modelBytes now) (i : ℕ) (env : ContributeEnv)
    (s : Sys) (c : ContributionRow) : Prop where
  stored : c ∈ (next app (.resume i env) s).world.store.contributions.rows
  fresh : c ∉ s.world.store.contributions.rows
  accepted : c.accepted = true
  sender : c.orgId = client.orgId ∧ c.roundId = k ∧ c.numExamples = n
  evidence : c.signedAttestation = encode x.form.attestation ∧ c.signatureHex = x.form.signature ∧
    c.challenge = x.issue.challenge ∧ c.modelSha256 = app.host.sha256hex modelBytes
  model : ∃ path, c.modelPath = some path ∧
    (next app (.resume i env) s).world.files path = some modelBytes
  answer : ∀ post, post s!"{client.baseUrl}/fl/rounds/{intStr k}/contribute" x.form =
      httpAnswer 202 ContributionResponse.body (contributeFinish app x.pending env s.world).1 →
    client.submitContribution app.host load x.network post k modelBytes n now =
      .ok (ContributionResponse.body ⟨c.contributionId, k, client.orgId,
        app.host.sha256hex modelBytes⟩)

variable {x : Exchange app load client k n modelBytes now} {priv : Bytes}

lemma issued (x : Exchange app load client k n modelBytes now) :
    ∃ answer, (issueRoundChallenge app x.req k x.issue (after app x.before).world).1 =
      .ok answer := by
  have hanswered := x.answered
  cases hres : (issueRoundChallenge app x.req k x.issue (after app x.before).world).1 with
  | ok answer => exact ⟨answer, rfl⟩
  | error e =>
    rw [hres] at hanswered
    exfalso
    obtain ⟨v, hv, -⟩ := bind_eq_ok.mp x.built
    rw [OrgClient.getChallenge, hanswered] at hv
    obtain ⟨u, hraise, hv⟩ := bind_eq_ok.mp hv
    cases e with
    | http status detail =>
      obtain ⟨body, hbody, hv⟩ := bind_eq_ok.mp hv
      cases hbody
      cases hv
    | uncaught e => cases hraise

lemma network_eq (x : Exchange app load client k n modelBytes now) :
    x.network s!"{client.baseUrl}/fl/rounds/{intStr k}/challenge" =
      ⟨200, .ok (challengeBody x.issue.challenge (x.number (x.issue.issuedAt + 600)))⟩ := by
  obtain ⟨answer, hanswer⟩ := x.issued
  obtain ⟨rfl, -⟩ := issueRoundChallenge_ok x.asked hanswer
  rw [x.answered, hanswer]
  rfl

lemma fits (x : Exchange app load client k n modelBytes now) : Host.bindInt k = .ok k := by
  obtain ⟨answer, hanswer⟩ := x.issued
  exact (issueRoundChallenge_ok x.asked hanswer).2.1

lemma form_eq (x : Exchange app load client k n modelBytes now)
    (hsigns : Signs app.host load client priv) :
    x.form.model = modelBytes ∧ encode x.form.attestation = buildContributionAttestation app.host k
        client.orgId modelBytes n x.issue.challenge now ∧
      x.form.signature = toHex (sign app.host priv (encode x.form.attestation)) := by
  obtain ⟨priv', hpriv, hmodel, hatt, hsig⟩ :=
    contributionForm_ok (by omega) x.network_eq x.built
  cases hsigns.loaded.symm.trans hpriv
  rw [← hatt] at hsig
  exact ⟨hmodel, hatt, hsig⟩

lemma loads_form (x : Exchange app load client k n modelBytes now)
    (hsigns : Signs app.host load client priv) (hn : Host.bindInt n = .ok n) :
    app.python.loads (encode x.form.attestation) =
      .ok (contributionFields app.host k client.orgId modelBytes n x.issue.challenge now) := by
  rw [(x.form_eq hsigns).2.1, loads_contribution _ x.fits hn]

lemma suspended (hposted : x.Posted) (hsigns : Signs app.host load client priv) :
    next app (.contribute x.upload) (after app x.events) =
      { world := (after app x.events).world,
        inFlight := (after app x.events).inFlight ++ [x.pending] } := by
  have hpasses : Passes app x.upload client.orgId (after app x.events).world
      (contributionFields app.host k client.orgId modelBytes n x.issue.challenge now) :=
    { addressed := addressed_contribution client.orgId
      round := ⟨.int k, (item_contribution rfl rfl).1, rfl⟩
      fits := x.fits
      running := hposted.running
      first := hposted.first }
  have hstart := contributeStart_passes (c := x.upload) hposted.caller
      (x.loads_form hsigns hposted.count) hpasses
  rw [wp_def] at hstart
  have hresult : contributeStart app x.upload (after app x.events).world =
      (.ok x.pending, (after app x.events).world) := Prod.ext hstart.1 hstart.2
  simp only [next, hresult]

/-- The challenge is still good, unless another upload of the org used it. -/
lemma challenge_waits (x : Exchange app load client k n modelBytes now) {rest : List Event}
    (hsole : ∀ q ∈ visits (next app) (after app (x.before ++ [.challenge x.req k x.issue]))
      (x.mid ++ .contribute x.upload :: rest),
      ¬GoesOn app q.1 q.2 (issuedRow client.orgId k x.issue)) :
    (after app (x.events ++ .contribute x.upload :: rest)).world.store.challenges.get?
      x.issue.challenge = some (issuedRow client.orgId k x.issue) := by
  obtain ⟨answer, hanswer⟩ := x.issued
  have hissued : (after app (x.before ++ [.challenge x.req k x.issue])).world.store.challenges.get?
      x.issue.challenge = some (issuedRow client.orgId k x.issue) := by
    rw [after_concat]
    exact (issueRoundChallenge_ok x.asked hanswer).2.2
  have hrun := challenge_run _ hissued hsole
  rw [← after_append] at hrun
  have hsplit : x.events ++ .contribute x.upload :: rest =
      x.before ++ [.challenge x.req k x.issue] ++ (x.mid ++ .contribute x.upload :: rest) := by
    simp [events]
  rw [hsplit]
  exact hrun

lemma evidence (hsigns : Signs app.host load client priv) (hposted : x.Posted)
    {env : ContributeEnv} {w : World}
    (htime : x.InTime priv env w) (hlive : w.store.challenges.get? x.issue.challenge =
      some (issuedRow client.orgId k x.issue)) :
    Evidence app x.pending env w (issuedRow client.orgId k x.issue) n := by
  obtain ⟨hmodel, -, hsig⟩ := x.form_eq hsigns
  obtain ⟨sent, hsent, hdrift⟩ := htime.fresh
  obtain ⟨pem, hpem, hpub⟩ := htime.key
  have hupload : x.pending.upload = modelBytes := hmodel
  constructor
  case size =>
    rw [hupload]
    exact htime.size
  case hash =>
    refine ⟨_, (item_contribution rfl rfl).1, ?_⟩
    rw [hupload]
    simp [Json.isStr]
  case fresh => exact ⟨_, sent, (item_contribution rfl rfl).1, hsent, hdrift⟩
  case named => exact ⟨_, (item_contribution rfl rfl).1, rfl⟩
  case stored => exact hlive
  case bound => exact ⟨rfl, rfl⟩
  case live => exact ⟨rfl, htime.live⟩
  case signed =>
    refine ⟨pem, _, sign app.host priv (encode x.form.attestation), hpem, hpub, ?_,
      hsigns.correct _⟩
    change fromHex x.form.signature = _
    rw [hsig, fromHex_toHex]
  case count => exact ⟨_, (item_contribution rfl rfl).1, rfl, hposted.count⟩

lemma submitContribution_ok (x : Exchange app load client k n modelBytes now)
    {post : String → UploadForm → HttpResponse} {resp : ContributionResponse}
    (hpost : post s!"{client.baseUrl}/fl/rounds/{intStr k}/contribute" x.form =
      ⟨202, .ok resp.body⟩) :
    client.submitContribution app.host load x.network post k modelBytes n now = .ok resp.body := by
  refine bind_eq_ok.mpr ⟨x.form, x.built, bind_eq_ok.mpr ⟨(), ?_, ?_⟩⟩
  · rw [hpost]
    rfl
  · rw [hpost]

/-- However the requests of others come in between, the upload of a client is suspended to be read,
and accepted with its evidence when the coordinator goes on with it in time, unless the org itself
used its challenge for another upload before. -/
theorem upload_accepted (hsigns : Signs app.host load client priv) (hposted : x.Posted) :
    x.pending ∈ (after app (x.events ++ [.contribute x.upload])).inFlight ∧
      ∀ rest i env, (after app (x.events ++ .contribute x.upload :: rest)).inFlight[i]? =
          some x.pending →
        x.InTime priv env (after app (x.events ++ .contribute x.upload :: rest)).world →
        (∀ q ∈ visits (next app) (after app (x.before ++ [.challenge x.req k x.issue]))
          (x.mid ++ .contribute x.upload :: rest),
          ¬GoesOn app q.1 q.2 (issuedRow client.orgId k x.issue)) →
        ∃ c, x.Received i env (after app (x.events ++ .contribute x.upload :: rest)) c := by
  constructor
  · rw [after_concat, suspended hposted hsigns]
    exact List.mem_append_right _ (List.mem_singleton_self _)
  intro rest i env hi htime hsole
  have hev := evidence hsigns hposted htime (x.challenge_waits hsole)
  generalize after app (x.events ++ .contribute x.upload :: rest) = s at hi htime hev ⊢
  obtain ⟨hmodel, -, -⟩ := x.form_eq hsigns
  have hupload : x.pending.upload = modelBytes := hmodel
  have hacc : Accepts app s (.resume i env) x.pending env (issuedRow client.orgId k x.issue) n :=
    ⟨⟨i, rfl, hi⟩, hev⟩
  have hanswer := contributeFinish_admissible ⟨_, _, hev⟩
  rw [hupload] at hanswer
  use acceptedRow app s x.pending env (issuedRow client.orgId k x.issue) n
  constructor
  case stored => exact hacc.recorded.1
  case fresh =>
    intro hold
    have hid := s.world.store.contributions.bounded _ hold
    exact absurd hid (by simp [acceptedRow, Store.Contribution.row])
  case accepted => rfl
  case sender => exact ⟨rfl, rfl, rfl⟩
  case evidence => exact ⟨rfl, rfl, rfl, congrArg app.host.sha256hex hupload⟩
  case model =>
    have hfile := hacc.recorded.2
    rw [hupload] at hfile
    exact ⟨_, congrArg some (congrArg _ (congrArg app.host.sha256hex hupload)), hfile⟩
  case answer =>
    intro post hpost
    rw [hanswer] at hpost
    exact x.submitContribution_ok hpost

/-! ### Two uploads that cross -/

/-- The loader of the private keys of a transparent installation. -/
def sampleLoad (pem : Bytes) : Except PyErr CaKey :=
  match Sample.pemKey pem with
  | .ok (.ed25519 raw) => .ok (.ed25519 raw)
  | .ok _ => .error (.valueError "key")
  | .error e => .error e

def sampleOrg : OrgClient where
  baseUrl := "https://fl.example"
  coordPubPem := none
  orgId := "x"
  orgPrivateKeyPem := encode (Sample.ed25519Pem [1])

def sampleIssue : ChallengeEnv := { authAt := 80, challenge := "a", issuedAt := 80 }

/-- Another org uploads between the challenge and the upload of `x`. -/
def crossing : List Event :=
  [Sample.enroll "y" [2] 12, Sample.challenge "b" (Sample.certOf "y" [2] 12),
    Sample.contribute "y" "b" [2] 12 Sample.model]

lemma sampleExchange : ∃ x : Exchange Sample.app sampleLoad sampleOrg 1 1 Sample.model
    "1970-01-01T00:01:40+00:00",
    x.before = [Sample.enroll "x" [1] 11, Sample.start none] ∧
    x.req = Sample.present (Sample.certOf "x" [1] 11) ∧ x.issue = sampleIssue ∧
    x.mid = crossing ∧ x.postReq = Sample.present (Sample.certOf "x" [1] 11) ∧ x.postAt = 90 := by
  have hasked : getAuthenticatedOrgId Sample.app (Sample.present (Sample.certOf "x" [1] 11))
      (after Sample.app [Sample.enroll "x" [1] 11, Sample.start none]).world 80 = .ok "x" := by
    decide +kernel
  have hok : (sampleOrg.contributionForm Sample.host sampleLoad
      (fun _ => httpAnswer 200 (fun a : String × ℚ => challengeBody a.1 (.int ⌊a.2⌋))
        (issueRoundChallenge Sample.app (Sample.present (Sample.certOf "x" [1] 11)) 1 sampleIssue
          (after Sample.app [Sample.enroll "x" [1] 11, Sample.start none]).world).1)
      1 Sample.model 1 "1970-01-01T00:01:40+00:00").isOk = true := by decide +kernel
  cases hform : sampleOrg.contributionForm Sample.host sampleLoad
      (fun _ => httpAnswer 200 (fun a : String × ℚ => challengeBody a.1 (.int ⌊a.2⌋))
        (issueRoundChallenge Sample.app (Sample.present (Sample.certOf "x" [1] 11)) 1 sampleIssue
          (after Sample.app [Sample.enroll "x" [1] 11, Sample.start none]).world).1)
      1 Sample.model 1 "1970-01-01T00:01:40+00:00" with
  | error e =>
    rw [hform] at hok
    cases hok
  | ok form =>
    exact ⟨{ before := [Sample.enroll "x" [1] 11, Sample.start none]
             req := Sample.present (Sample.certOf "x" [1] 11)
             issue := sampleIssue
             mid := crossing
             network := _
             number := fun t => .int ⌊t⌋
             form
             postReq := Sample.present (Sample.certOf "x" [1] 11)
             postAt := 90
             asked := hasked
             answered := rfl
             built := hform }, rfl, rfl, rfl, rfl, rfl, rfl⟩

lemma sampleOrg_signs : Signs Sample.app.host sampleLoad sampleOrg [1] :=
  ⟨by decide +kernel, fun msg => Sample.verify_tag [1] msg⟩

/-- The upload of `x` comes second, and is accepted first. -/
theorem upload_accepted_crossing :
    ∃ (x : Exchange Sample.app sampleLoad sampleOrg 1 1 Sample.model "1970-01-01T00:01:40+00:00")
      (env : ContributeEnv) (c : ContributionRow), x.mid = crossing ∧
      x.Received 1 env (after Sample.app (x.events ++ [.contribute x.upload])) c := by
  obtain ⟨x, hbefore, hreq, hissue, hmid, hpostReq, hpostAt⟩ := sampleExchange
  have hevents : x.events = [Sample.enroll "x" [1] 11, Sample.start none,
      Sample.challenge "a" (Sample.certOf "x" [1] 11)] ++ crossing := by
    rw [events, hbefore, hreq, hissue, hmid]
    rfl
  have hposted : x.Posted := by
    constructor
    · rw [hpostReq, hpostAt, hevents]
      decide +kernel
    · have hstatus : ((after Sample.app ([Sample.enroll "x" [1] 11, Sample.start none,
          Sample.challenge "a" (Sample.certOf "x" [1] 11)] ++ crossing)).world.store.getRound 1).map
          (·.status) = some .running := by decide +kernel
      rw [hevents]
      obtain ⟨r, hr, hst⟩ := Option.map_eq_some_iff.mp hstatus
      exact ⟨r, hr, hst⟩
    · rw [hevents]
      decide +kernel
    · decide +kernel
  have hlength : (after Sample.app ([Sample.enroll "x" [1] 11, Sample.start none,
      Sample.challenge "a" (Sample.certOf "x" [1] 11)] ++ crossing)).inFlight.length = 1 := by
    decide +kernel
  have hkey : ((after Sample.app ([Sample.enroll "x" [1] 11, Sample.start none,
      Sample.challenge "a" (Sample.certOf "x" [1] 11)] ++ crossing)).world.store.getOrgPublicKey
      "x") = some (Sample.ed25519Pem [1]) := by decide +kernel
  rw [← hevents] at hlength hkey
  use x, { checkedAt := 100, consumedAt := 100, recordedAt := 100, loggedAt := Sample.zero }
  have haccepted := (upload_accepted sampleOrg_signs hposted).2 [] 1
    { checkedAt := 100, consumedAt := 100, recordedAt := 100, loggedAt := Sample.zero }
  obtain ⟨c, hc⟩ := haccepted
    (by rw [after_concat, suspended hposted sampleOrg_signs,
      List.getElem?_append_right (by omega), hlength]; rfl)
    { size := by decide +kernel
      fresh := ⟨100, by decide +kernel, by decide +kernel⟩
      live := by rw [hissue]; decide +kernel
      key := by
        rw [after_concat, suspended hposted sampleOrg_signs]
        exact ⟨_, hkey, by decide +kernel⟩ }
    (by
      rintro q hq ⟨i, env, p, v, he, -⟩
      obtain ⟨pre, post, hes, -⟩ := (mem_visits _).mp hq
      have hmem : Event.resume i env ∈ x.mid ++ [.contribute x.upload] := by
        rw [hes, he]
        simp
      rw [hmid] at hmem
      simp [crossing, Sample.enroll, Sample.challenge, Sample.contribute] at hmem)
  exact ⟨c, hmid, hc⟩

end Exchange

end Delivery

/-! ### The download is the merged model -/

section Download

variable {app : App} {client : FLClient} {coordPriv : Bytes} {k : ℤ}

/-- The client knows the key that the coordinator signs with, and signatures and Base64 work. -/
structure FLClient.Knows (client : FLClient) (app : App) (coordPriv : Bytes) : Prop where
  key : app.coordPriv = some coordPriv
  pem : ∃ pem, client.coordPubPem = some pem ∧ pem ≠ [] ∧
    publicKeyFromPem app.host pem = .ok (app.host.ed25519Public coordPriv)
  correct : ∀ msg, verify app.host (app.host.ed25519Public coordPriv) msg
    (sign app.host coordPriv msg) = true
  base64 : ∀ b, app.host.b64decode (app.host.b64encode b) = .ok b

lemma aggregateRound_fits {user : Option FLUser} {env : AggregateEnv} {w : World}
    {resp : AggregateResponse} (h : (aggregateRound app user k env w).1 = .ok resp) :
    Host.bindInt k = .ok k := by
  have hspec : (aggregateRound app user k env).wp
      (fun r _ => ∀ resp, r = .ok resp → Host.bindInt k = .ok k) w := by
    unfold aggregateRound
    apply wp_flRequire_bind
    · intro _ e resp h
      cases h
    intro u _ _
    apply wp_requireRound_fits_bind
    · intro e resp h
      cases h
    intro r hfit _
    rw [wp_def]
    exact fun _ _ => hfit
  exact hspec resp h

lemma merged_kept {pre : List Event} {user : Option FLUser} {env : AggregateEnv}
    {resp : AggregateResponse} (post : List Event)
    (done : Aggregated app user k env (after app pre).world resp
      (next app (.aggregate user k env) (after app pre)).world) :
    (after app (pre ++ .aggregate user k env :: post)).world.files
      (roundModelPath app.modelDir k) = some done.bytes := by
  have hclosed : RoundClosed (next app (.aggregate user k env) (after app pre)).world.store k := by
    obtain ⟨r, hr, hstatus⟩ := done.stagedFor.round
    exact ⟨r, hr, by rw [hstatus]; decide⟩
  calc (after app (pre ++ .aggregate user k env :: post)).world.files (roundModelPath app.modelDir k)
    _ = (Lib.run (next app) (next app (.aggregate user k env) (after app pre)) post).world.files
        (roundModelPath app.modelDir k) := by rw [after_append]; rfl
    _ = (next app (.aggregate user k env) (after app pre)).world.files
        (roundModelPath app.modelDir k) := modelFile_run post hclosed
    _ = some done.bytes := by rw [done.files, Function.update_self]

/-- Once a round is published, its model stays what the aggregation merged: whoever authenticates
fetches these bytes and finds them verified, whatever happened in between. -/
theorem published_model_fetched (hknows : client.Knows app coordPriv) {pre post : List Event}
    {user : Option FLUser} {env : AggregateEnv} {resp : AggregateResponse} {r : RoundRow}
    {req : Request} {serve : ServeEnv} {caller : String} {network : String → HttpResponse}
    (hok : (aggregateRound app user k env (after app pre).world).1 = .ok resp)
    (hr : (after app (pre ++ .aggregate user k env :: post)).world.store.getRound k = some r)
    (hpublished : r.status = .completed)
    (hauth : getAuthenticatedOrgId app req
      (after app (pre ++ .aggregate user k env :: post)).world serve.authAt = .ok caller)
    (hnetwork : network s!"{client.baseUrl}/fl/rounds/{intStr k}/global-model" =
      httpAnswer 200 SignedModel.payload (getRoundGlobalModel app req k serve
        (after app (pre ++ .aggregate user k env :: post)).world).1) :
    ∃ done : Aggregated app user k env (after app pre).world resp
        (next app (.aggregate user k env) (after app pre)).world,
      client.fetchGlobalModel app.host network k true = .ok done.bytes := by
  obtain ⟨done⟩ : Nonempty (Aggregated app user k env (after app pre).world resp
    (next app (.aggregate user k env) (after app pre)).world) := aggregated_of_ok hok
  use done
  have hfile := merged_kept post done
  have hanswered := (Consistent.run app (pre ++ .aggregate user k env :: post)).round_answered
    (by rw [hknows.key]; rfl) hauth (aggregateRound_fits hok) hr hpublished
  cases hserved : (getRoundGlobalModel app req k serve
      (after app (pre ++ .aggregate user k env :: post)).world).1 with
  | error e =>
    rw [hserved] at hanswered
    cases hanswered
  | ok m =>
    obtain ⟨-, bytes, hbytes, hcarries⟩ := getRoundGlobalModel_ok hserved
    obtain rfl : done.bytes = bytes := Option.some.inj (hfile.symm.trans hbytes)
    rw [hserved] at hnetwork
    obtain ⟨pem, hpem, hne, hpub⟩ := hknows.pem
    have hfetched : client.fetchGlobalModel app.host
        (fun _ => network s!"{client.baseUrl}/fl/rounds/{intStr k}/global-model") k true =
        .ok done.bytes :=
      fetchGlobalModel_payload hcarries hknows.key hpem hne hpub hknows.correct (hknows.base64 _)
        fun _ => hnetwork
    exact hfetched

/-- One upload is recorded. -/
def recordedUpload : List Event := waitingUpload ++ [Sample.resume]

def scoredEnv : AggregateEnv := Sample.aggregateEnv fun _ => .scored 1

def fetchEnv : ServeEnv := { authAt := 400, distributedAt := "1970-01-01T00:06:40+00:00" }

/-- The model is published, and another round opened. -/
def publishedThenOpened : List Event :=
  recordedUpload ++ .aggregate (some Sample.admin) 1 scoredEnv :: [Sample.publish, Sample.start none]

/-- The model of the first round, fetched by its contributor after another round was opened. -/
theorem published_model_fetched_opened :
    ∃ (resp : AggregateResponse) (network : String → HttpResponse)
      (done : Aggregated Sample.app (some Sample.admin) 1 scoredEnv
        (after Sample.app recordedUpload).world resp
        (next Sample.app (.aggregate (some Sample.admin) 1 scoredEnv)
          (after Sample.app recordedUpload)).world),
      sampleClient.fetchGlobalModel Sample.app.host network 1 true = .ok done.bytes := by
  have hknows : sampleClient.Knows Sample.app Sample.coordKey :=
    { key := rfl
      pem := ⟨_, rfl, by decide +kernel, by decide +kernel⟩
      correct := fun msg => Sample.verify_tag _ msg
      base64 := fun b => by simp only [Sample.app, Sample.host, fromHex_toHex] }
  have hisOk : (aggregateRound Sample.app (some Sample.admin) 1 scoredEnv
      (after Sample.app recordedUpload).world).1.isOk = true := by decide +kernel
  have hstatus : ((after Sample.app publishedThenOpened).world.store.getRound 1).map (·.status) =
      some .completed := by decide +kernel
  have hauth : getAuthenticatedOrgId Sample.app (Sample.present (Sample.certOf "x" [1] 11))
      (after Sample.app publishedThenOpened).world fetchEnv.authAt = .ok "x" := by decide +kernel
  obtain ⟨r, hr, hpublished⟩ := Option.map_eq_some_iff.mp hstatus
  obtain ⟨network, hnetwork⟩ : ∃ network : String → HttpResponse, ∀ url, network url =
      httpAnswer 200 SignedModel.payload (getRoundGlobalModel Sample.app
        (Sample.present (Sample.certOf "x" [1] 11)) 1 fetchEnv
        (after Sample.app publishedThenOpened).world).1 := ⟨fun _ => _, fun _ => rfl⟩
  cases hres : (aggregateRound Sample.app (some Sample.admin) 1 scoredEnv
      (after Sample.app recordedUpload).world).1 with
  | error e =>
    rw [hres] at hisOk
    cases hisOk
  | ok resp =>
    exact ⟨resp, network, published_model_fetched hknows hres hr hpublished hauth (hnetwork _)⟩

end Download

end FlCoordinator
