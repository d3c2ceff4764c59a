import FlCoordinator.Changes
import FlCoordinator.Sample

/-!
# How final a revocation is

The row of a revoked org, the certificate it used, and the enrollment tokens minted for it,
over every run of the coordinator.
-/

namespace FlCoordinator

open Lib

/-! ### The status of a revoked org -/

section Status

variable {app : App} {s : Sys}

/-- `e` keeps every revoked org revoked, or enrolls it anew with the certificate issued and the
API key drawn for that request. -/
def KeepsRevoked (app : App) (s : Sys) (e : Event) : Prop :=
  ∀ x row, s.world.store.getOrg x = some row → row.status = .revoked →
    ∃ row', (next app e s).world.store.getOrg x = some row' ∧
      (row'.status = .revoked ∨ ∃ pem env en, e.enrollment = some (x, pem, env) ∧
        Installs app x pem env en ∧ row' = en.row env.enrolledAt)

/-- A permitted block or unblock of a revoked org. -/
def Reinstates (s : Sys) (e : Event) : Prop :=
  ∃ x row st, e.statusSet = some (x, st) ∧ st ≠ .revoked ∧
    s.world.store.getOrg x = some row ∧ row.status = .revoked

lemma status_of_core_eq {o : Option OrgRow} {row : OrgRow}
    (h : o.map OrgRow.core = some row.core) : ∃ row', o = some row' ∧ row'.status = row.status := by
  obtain ⟨row', rfl, hcore⟩ := Option.map_eq_some_iff.mp h
  exact ⟨row', rfl, (congrArg OrgRow.status hcore :)⟩

lemma getOrg_next_of_statusSet {e : Event} {x : String} {st : OrgStatus} {row : OrgRow}
    (he : e.statusSet = some (x, st)) (hrow : s.world.store.getOrg x = some row) :
    (next app e s).world.store.getOrg x = some { row with status := st } := by
  have hknown : (s.world.store.getOrg x).isSome := by rw [hrow]; rfl
  have hget : ∀ {permission user t}, StatusSet permission st user x s.world t →
      t.store.getOrg x = some { row with status := st } := by
    intro permission user t h
    rw [h.store, Store.getOrg_setOrgStatus, if_pos rfl, hrow]
    rfl
  cases e with
  | block user y t =>
    cases user with
    | none => cases he
    | some u =>
      simp only [Event.statusSet] at he
      split_ifs at he with hperm
      cases he
      rcases blockOrg_spec app s.world (some u) x t with ⟨-, -, hno⟩ | ⟨-, h, -⟩
      · exact absurd ⟨⟨u, rfl, hperm⟩, hknown⟩ hno
      · exact hget h
  | unblock user y t =>
    cases user with
    | none => cases he
    | some u =>
      simp only [Event.statusSet] at he
      split_ifs at he with hperm
      cases he
      rcases unblockOrg_spec app s.world (some u) x t with ⟨-, -, hno⟩ | ⟨-, h, -⟩
      · exact absurd ⟨⟨u, rfl, hperm⟩, hknown⟩ hno
      · exact hget h
  | revoke user y crl t =>
    cases user with
    | none => cases he
    | some u =>
      simp only [Event.statusSet] at he
      split_ifs at he with hperm
      cases he
      rcases revokeOrg_spec app s.world crl (some u) x t with ⟨-, -, hno⟩ | ⟨-, h, -⟩
      · exact absurd ⟨⟨u, rfl, hperm⟩, hknown⟩ hno
      · exact hget h
  | _ => cases he

/-- One step keeps revoked orgs revoked exactly when it does not block or unblock one. -/
theorem keepsRevoked_iff (e : Event) : KeepsRevoked app s e ↔ ¬Reinstates s e := by
  constructor
  · rintro h ⟨x, row, st, he, hst, hrow, hrev⟩
    obtain ⟨row', hrow', hkeep⟩ := h x row hrow hrev
    rw [getOrg_next_of_statusSet he hrow] at hrow'
    cases hrow'
    rcases hkeep with hkeep | ⟨pem, env, en, henroll, -⟩
    · exact hst hkeep
    · cases e <;> first | cases he | cases henroll
  · intro h x row hrow hrev
    cases (next_effect app s e).rowMove x with
    | kept core =>
      rw [hrow] at core
      obtain ⟨row', hrow', hst⟩ := status_of_core_eq core
      exact ⟨row', hrow', Or.inl (hst.trans hrev)⟩
    | enrolled pem env en event free installs row =>
      exact ⟨_, row, Or.inr ⟨pem, env, en, event, installs, rfl⟩⟩
    | status r st event old new =>
      rw [hrow] at old
      cases old
      by_cases hst : st = .revoked
      · exact ⟨_, new, Or.inl hst⟩
      · exact absurd ⟨x, row, st, event, hst, hrow, hrev⟩ h
    | left req body env r event old asked evidence new =>
      rw [hrow] at old
      cases old
      exact absurd hrev asked
    | removed user env coordPriv r event key old leaving new => exact ⟨_, new, Or.inl rfl⟩

/-- Over a run, revoked orgs leave that status by enrollment only, exactly when no step of the
run is a permitted block or unblock of a revoked org. -/
theorem revoked_until_enrolled_iff (app : App) (es : List Event) :
    (∀ p ∈ steps app es, KeepsRevoked app p.1 p.2) ↔ ∀ p ∈ steps app es, ¬Reinstates p.1 p.2 :=
  forall₂_congr fun _ _ => keepsRevoked_iff _

/-- An operator, who cannot enroll, unblocks a revoked org. -/
theorem unblock_reinstates_revoked :
    ¬∀ p ∈ steps Sample.app
      [Sample.enroll "x" [1] 11, Sample.revoke "x", .unblock (some Sample.operator) "x" Sample.zero],
      KeepsRevoked Sample.app p.1 p.2 := by
  intro h
  have hmem : (after Sample.app [Sample.enroll "x" [1] 11, Sample.revoke "x"],
      Event.unblock (some Sample.operator) "x" Sample.zero) ∈ steps Sample.app
      [Sample.enroll "x" [1] 11, Sample.revoke "x",
        .unblock (some Sample.operator) "x" Sample.zero] :=
    (mem_visits _).mpr ⟨[Sample.enroll "x" [1] 11, Sample.revoke "x"], [], rfl, rfl⟩
  have hbefore : ((after Sample.app [Sample.enroll "x" [1] 11, Sample.revoke "x"]).world.store.getOrg
      "x").map (·.status) = some .revoked := by decide +kernel
  have hafter : ((next Sample.app (.unblock (some Sample.operator) "x" Sample.zero)
      (after Sample.app [Sample.enroll "x" [1] 11, Sample.revoke "x"])).world.store.getOrg
      "x").map (·.status) = some .active := by decide +kernel
  obtain ⟨row, hrow, hrev⟩ := Option.map_eq_some_iff.mp hbefore
  obtain ⟨row', hrow', hkeep⟩ := h _ hmem "x" row hrow hrev
  rw [hrow'] at hafter
  rcases hkeep with hkeep | ⟨pem, env, en, henroll, -⟩
  · simp [hkeep] at hafter
  · cases henroll

end Status

/-! ### The certificate of a revoked org -/

section Certificates

variable {app : App}

/-- A CA is loaded, the development header is off, and every rebuild of the CRL is written. -/
structure Secured (app : App) (es : List Event) : Prop where
  ca : app.ca.isSome
  header : app.devHeaderAllowed = false
  writable : ∀ e ∈ es, ∀ env ∈ e.crlEnv, env.writable = true

/-- The serials that the enrollments of a run draw are distinct. -/
def FreshSerials (es : List Event) : Prop :=
  (es.filterMap (fun e => e.enrollment.map (·.2.2.serial))).Nodup

instance (es : List Event) : Decidable (FreshSerials es) := List.nodupDecidable _

/-- Once a run has revoked an org, its certificate identifies nobody. -/
def RevocationFinal (app : App) (es : List Event) : Prop :=
  ∀ pre e post x row n, es = pre ++ e :: post → revokes app e (after app pre).world = some x →
    (after app pre).world.store.getOrg x = some row → row.certSerial = some n →
    ∀ req now cert, presentedCert app req = some cert → cert.serialNumber = n →
      extractVerifiedOrgId app req (after app es).world now = none

/-- `n` is on the loaded CRL. -/
def Listed (n : ℤ) (s : Sys) : Prop := ∃ crl, s.world.crl = some crl ∧ n ∈ crl.revoked

/-- When `e` revokes `x`, every serial on the CRL stands in the row of a revoked org or of `x`. -/
def RowsBehindList (app : App) (s : Sys) (e : Event) : Prop :=
  ∀ x, revokes app e s.world = some x → ∀ n, Listed n s →
    ∃ row, s.world.store.getOrg row.orgId = some row ∧ row.certSerial = some n ∧
      (row.status = .revoked ∨ row.orgId = x)

lemma listed_of_revokes {s : Sys} {e : Event} {x : String} {row : OrgRow} {n : ℤ}
    (hca : app.ca.isSome) (hw : ∀ env ∈ e.crlEnv, env.writable = true)
    (h : revokes app e s.world = some x) (hrow : s.world.store.getOrg x = some row)
    (hn : row.certSerial = some n) : Listed n (next app e s) := by
  have hrev := revocation_of_revokes h
  obtain ⟨crl, hcrl, hlist⟩ := hrev.list hca hw
  obtain ⟨row₀, row', hold, hnew, hst, hserial⟩ := hrev.row
  rw [hrow] at hold
  obtain rfl := Option.some.inj hold
  refine ⟨crl, hcrl, ?_⟩
  rw [hlist, Store.mem_listRevokedSerials]
  exact ⟨row', by rw [Store.getOrg_orgId hnew]; exact hnew, hst, hserial.trans hn⟩

lemma listed_next {s : Sys} {e : Event} {n : ℤ} (hca : app.ca.isSome)
    (hw : ∀ env ∈ e.crlEnv, env.writable = true) (hrows : RowsBehindList app s e)
    (h : Listed n s) : Listed n (next app e s) := by
  cases hx : revokes app e s.world with
  | none =>
    obtain ⟨crl, hcrl, hn⟩ := h
    exact ⟨crl, (crl_next_of_none hx).trans hcrl, hn⟩
  | some x =>
    obtain ⟨row, hrow, hserial, hcase⟩ := hrows x hx n h
    by_cases horg : row.orgId = x
    · exact listed_of_revokes hca hw hx (horg ▸ hrow) hserial
    · have hrev := revocation_of_revokes hx
      obtain ⟨crl, hcrl, hlist⟩ := hrev.list hca hw
      refine ⟨crl, hcrl, ?_⟩
      rw [hlist, Store.mem_listRevokedSerials]
      refine ⟨row, ?_, hcase.resolve_right horg, hserial⟩
      rw [hrev.others row.orgId (Ne.symm horg)]
      exact hrow

lemma extractVerifiedOrgId_of_listed {s : Sys} {n : ℤ} {req : Request} {now : ℚ}
    {cert : Certificate} (hdev : app.devHeaderAllowed = false) (h : Listed n s)
    (hcert : presentedCert app req = some cert) (hn : cert.serialNumber = n) :
    extractVerifiedOrgId app req s.world now = none := by
  obtain ⟨crl, hcrl, hmem⟩ := h
  have hnone : devHeaderOrgId app req = none := by simp [devHeaderOrgId, hdev]
  rw [extractVerifiedOrgId, hnone, hcert]
  exact orgIdOfCert_of_revoked hcrl (hn.symm ▸ hmem)

/-- Revocation is final in every run whose revocations find, behind each serial on the CRL, the
row of a revoked org or of the org being revoked. -/
theorem revocation_final {es : List Event} (hsec : Secured app es)
    (hrows : ∀ p ∈ steps app es, RowsBehindList app p.1 p.2) : RevocationFinal app es := by
  intro pre e post x row n hes hrev hrow hserial req now cert hcert hn
  have hwrite : ∀ f, f = e ∨ f ∈ post → ∀ env ∈ f.crlEnv, env.writable = true := by
    intro f hf
    apply hsec.writable f
    rw [hes]
    rcases hf with rfl | hf
    · simp
    · simp [hf]
  have hstart : Listed n (next app e (after app pre)) :=
    listed_of_revokes hsec.ca (hwrite e (Or.inl rfl)) hrev hrow hserial
  have hend : Listed n (Lib.run (next app) (next app e (after app pre)) post) := by
    refine run_invariant (next app) (A := fun s f => RowsBehindList app s f ∧
      ∀ env ∈ f.crlEnv, env.writable = true)
      (fun s f h hok => listed_next hsec.ca hok.2 hok.1 h) hstart post fun p hp => ?_
    obtain ⟨mid, post', hpost, hstate⟩ := (mem_visits _).mp hp
    refine ⟨hrows p ((mem_visits _).mpr ⟨pre ++ e :: mid, post', ?_, ?_⟩), ?_⟩
    · rw [hes, hpost]
      simp
    · rw [hstate, run_append]
      rfl
    · refine hwrite p.2 (Or.inr ?_)
      rw [hpost]
      simp
  have hafter : after app es = Lib.run (next app) (next app e (after app pre)) post := by
    rw [hes, after, run_append]
    rfl
  rw [hafter]
  exact extractVerifiedOrgId_of_listed hsec.header hend hcert hn

/-- Two orgs enrolled and revoked in turn. -/
def revokedTwice : List Event :=
  [Sample.enroll "x" [1] 11, Sample.enroll "y" [3] 13, Sample.revoke "x", Sample.revoke "y"]

lemma secured_sample {es : List Event} (h : ∀ e ∈ es, ∀ env ∈ e.crlEnv, env.writable = true) :
    Secured Sample.app es := ⟨rfl, rfl, h⟩

lemma mem_of_listed {s : Sys} {l : List ℤ} {n : ℤ} (h : s.world.crl.map (·.revoked) = some l)
    (hn : Listed n s) : n ∈ l := by
  obtain ⟨crl, hcrl, hmem⟩ := hn
  rw [hcrl] at h
  exact Option.some.inj h ▸ hmem

theorem revocation_final_revokedTwice : RevocationFinal Sample.app revokedTwice := by
  refine revocation_final (secured_sample ?_) fun p hp => ?_
  · simp [revokedTwice, Sample.enroll, Sample.revoke, Event.crlEnv]
  · simp only [steps, revokedTwice, visits, List.mem_cons, List.not_mem_nil, or_false] at hp
    intro x hx n hn
    rcases hp with rfl | rfl | rfl | rfl
    · cases hx
    · cases hx
    · have hmem := mem_of_listed (l := []) (by decide +kernel) hn
      cases hmem
    · have hmem := mem_of_listed (l := [11]) (by decide +kernel) hn
      obtain rfl := List.mem_singleton.mp hmem
      have hrow : ((after Sample.app [Sample.enroll "x" [1] 11, Sample.enroll "y" [3] 13,
          Sample.revoke "x"]).world.store.getOrg "x").map (fun r => (r.certSerial, r.status)) =
          some (some 11, .revoked) := by decide +kernel
      obtain ⟨row, hrow, hfields⟩ := Option.map_eq_some_iff.mp hrow
      obtain ⟨hserial, hst⟩ := Prod.mk.inj hfields
      exact ⟨row, by rw [Store.getOrg_orgId hrow]; exact hrow, hserial, Or.inl hst⟩

/-- A revoked org is enrolled anew, and the revocation of another org rebuilds the CRL. -/
def reenrolledBeforeRebuild : List Event :=
  [Sample.enroll "x" [1] 11, Sample.revoke "x", Sample.enroll "x" [2] 12,
    Sample.enroll "y" [3] 13, Sample.revoke "y"]

/-- The first certificate of `x` was revoked and is accepted again. -/
theorem revoked_certificate_accepted :
    Secured Sample.app reenrolledBeforeRebuild ∧ FreshSerials reenrolledBeforeRebuild ∧
      ¬RevocationFinal Sample.app reenrolledBeforeRebuild := by
  refine ⟨secured_sample ?_, by decide +kernel, fun h => ?_⟩
  · simp [reenrolledBeforeRebuild, Sample.enroll, Sample.revoke, Event.crlEnv]
  · have hrow : ((after Sample.app [Sample.enroll "x" [1] 11]).world.store.getOrg "x").map
        (·.certSerial) = some (some 11) := by decide +kernel
    obtain ⟨row, hrow, hserial⟩ := Option.map_eq_some_iff.mp hrow
    have hcert : ((presentedCert Sample.app (Sample.present (Sample.certOf "x" [1] 11))).map
        (·.serialNumber)) = some 11 := by decide +kernel
    obtain ⟨cert, hcert, hn⟩ := Option.map_eq_some_iff.mp hcert
    have hnone := h [Sample.enroll "x" [1] 11] (Sample.revoke "x")
      [Sample.enroll "x" [2] 12, Sample.enroll "y" [3] 13, Sample.revoke "y"] "x" row 11 rfl
      (by decide +kernel) hrow hserial (Sample.present (Sample.certOf "x" [1] 11)) 200 cert hcert hn
    have hsome : extractVerifiedOrgId Sample.app (Sample.present (Sample.certOf "x" [1] 11))
        (after Sample.app reenrolledBeforeRebuild).world 200 = some "x" := by decide +kernel
    rw [hnone] at hsome
    cases hsome

end Certificates

/-! ### Enrollment tokens and revocation -/

section Tokens

variable {app : App}

/-- `e` redeems a token and thereby makes the org `x` active. -/
structure Reactivates (app : App) (s : Sys) (e : Event) (x : String) : Prop where
  event : ∃ body env, e = .redeemToken body env
  inactive : ∀ row, s.world.store.getOrg x = some row → row.status ≠ .active
  active : ∃ row, (next app e s).world.store.getOrg x = some row ∧ row.status = .active

/-- `e` consumes the token `jti`. -/
def Consumes (app : App) (s : Sys) (e : Event) (jti : String) : Prop :=
  (∃ row, s.world.store.tokens.get? jti = some row ∧ row.consumed = false) ∧
    ∃ row, (next app e s).world.store.tokens.get? jti = some row ∧ row.consumed = true

/-- `e` mints the token `jti`. -/
def Mints (app : App) (s : Sys) (e : Event) (jti : String) : Prop :=
  (∃ user body env, e = .mintToken user body env ∧ env.jti = jti) ∧
    s.world.store.tokens.get? jti = none ∧ ((next app e s).world.store.tokens.get? jti).isSome

/-- A revoked org comes back through a token only if that token was minted afterwards. -/
def TokensRenewed (app : App) (es : List Event) : Prop :=
  ∀ pre r mid e post x, es = pre ++ r :: (mid ++ e :: post) →
    revokes app r (after app pre).world = some x →
    Reactivates app (after app (pre ++ r :: mid)) e x →
    ∃ jti, Consumes app (after app (pre ++ r :: mid)) e jti ∧
      ∃ mid₁ m mid₂, mid = mid₁ ++ m :: mid₂ ∧ Mints app (after app (pre ++ r :: mid₁)) m jti

/-- Whenever an org is revoked, each of its tokens has been used, or will have expired by the
time of every later attempt of that org to redeem one. -/
def OutstandingExpired (app : App) (es : List Event) : Prop :=
  ∀ pre r mid body env post x, es = pre ++ r :: (mid ++ .redeemToken body env :: post) →
    revokes app r (after app pre).world = some x → body.orgId = x →
    ∀ jti row, (after app pre).world.store.tokens.get? jti = some row → row.orgId = x →
      row.consumed = true ∨ row.expiresAt ≤ env.consumedAt

/-- The tokens of `s` are still there in `t`; a used one stays used. -/
def TokensKept (s t : Sys) : Prop :=
  ∀ jti row, s.world.store.tokens.get? jti = some row →
    ∃ row', t.world.store.tokens.get? jti = some row' ∧ row'.orgId = row.orgId ∧
      row'.expiresAt = row.expiresAt ∧ (row.consumed = true → row'.consumed = true)

lemma tokensKept_next (s : Sys) (e : Event) : TokensKept s (next app e s) := by
  intro jti row hrow
  cases (next_effect app s e).tokenMove jti with
  | kept same => exact ⟨row, same.trans hrow, rfl, rfl, id⟩
  | minted user body env new event drawn org fresh hnew =>
    rw [fresh] at hrow
    cases hrow
  | consumed body env old event hold org unused live hnew =>
    rw [hrow] at hold
    obtain rfl := Option.some.inj hold
    exact ⟨_, hnew, rfl, rfl, fun _ => rfl⟩

lemma tokensKept_run (app : App) (s : Sys) (es : List Event) :
    TokensKept s (Lib.run (next app) s es) := by
  refine run_relation (next app) (R := TokensKept) (fun s jti row h => ⟨row, h, rfl, rfl, id⟩)
    (fun a b c hab hbc jti row h => ?_) tokensKept_next s es
  obtain ⟨row', hrow', horg, hexp, hused⟩ := hab jti row h
  obtain ⟨row'', hrow'', horg', hexp', hused'⟩ := hbc jti row' hrow'
  exact ⟨row'', hrow'', horg'.trans horg, hexp'.trans hexp, fun hu => hused' (hused hu)⟩

lemma reactivates_consumes {s : Sys} {e : Event} {x : String} (h : Reactivates app s e x) :
    ∃ body env row, e = .redeemToken body env ∧ body.orgId = x ∧ Consumes app s e row.jti ∧
      s.world.store.tokens.get? row.jti = some row ∧ row.orgId = x ∧ row.consumed = false ∧
      env.consumedAt < row.expiresAt := by
  obtain ⟨body, env, rfl⟩ := h.event
  obtain ⟨row', hactive, hst⟩ := h.active
  have hmoved : (next app (.redeemToken body env) s).world.store.getOrg x ≠
      s.world.store.getOrg x := fun hsame => h.inactive row' (hsame.symm.trans hactive) hst
  have heffect := next_effect app s (.redeemToken body env)
  generalize ht : (next app (.redeemToken body env) s).world = t at heffect hmoved
  cases heffect with
  | idle store crl => exact absurd (by rw [store]) hmoved
  | burnToken jti redeemed crl =>
    obtain ⟨row, -, -, -, -, -, hstore⟩ := Store.consumeEnrollToken_ok redeemed.consumed
    exact absurd (by rw [hstore]; rfl) hmoved
  | redeem jti mid redeemed done crl =>
    obtain ⟨row, -, hrow, horg, hunused, hlive, rfl⟩ :=
      Store.consumeEnrollToken_ok redeemed.consumed
    obtain ⟨en, hen, hstore⟩ := done.row
    have hx : body.orgId = x := by
      by_contra hne
      apply hmoved
      rw [hstore, Store.getOrg_insertOrg, if_neg (fun heq => hne (hen.org.symm.trans heq))]
      rfl
    refine ⟨body, env, row, rfl, hx, ⟨⟨row, hrow, hunused⟩, ?_⟩, hrow, horg.trans hx, hunused,
      hlive⟩
    refine ⟨{ row with consumed := true, consumedAt := some env.consumedAt }, ?_, rfl⟩
    rw [ht, hstore]
    refine (Store.get?_consumeTokenRow s.world.store row.jti env.consumedAt row.jti).trans ?_
    rw [if_pos rfl, hrow]
    rfl

lemma mints_of_new {s : Sys} {e : Event} {jti : String}
    (h : ((next app e s).world.store.tokens.get? jti).isSome) :
    (s.world.store.tokens.get? jti).isSome ∨ Mints app s e jti := by
  cases (next_effect app s e).tokenMove jti with
  | kept same =>
    rw [same] at h
    exact Or.inl h
  | minted user body env new event drawn org fresh hnew =>
    exact Or.inr ⟨⟨user, body, env, event, drawn⟩, fresh, h⟩
  | consumed body env old event hold org unused live hnew =>
    rw [hold]
    exact Or.inl rfl

/-- Tokens minted before a revocation never bring the org back, in every run where no live token
of an org is outstanding when it is revoked. -/
theorem tokens_renewed {es : List Event} (h : OutstandingExpired app es) :
    TokensRenewed app es := by
  intro pre r mid e post x hes hrev hre
  obtain ⟨body, env, row, rfl, hx, hcons, hrow, horg, hunused, hlive⟩ := reactivates_consumes hre
  refine ⟨row.jti, hcons, ?_⟩
  have hstate : ∀ mid', after app (pre ++ r :: mid') =
      Lib.run (next app) (next app r (after app pre)) mid' := by
    intro mid'
    rw [after, run_append]
    rfl
  -- a token known before the revocation would be live at the redemption
  have hunknown : (after app pre).world.store.tokens.get? row.jti = none := by
    cases hold : (after app pre).world.store.tokens.get? row.jti with
    | none => rfl
    | some old =>
      obtain ⟨row', hrow', horg', hexp', hused'⟩ :=
        tokensKept_run app (after app pre) (r :: mid) row.jti old hold
      rw [run_cons, ← hstate, hrow] at hrow'
      obtain rfl := Option.some.inj hrow'
      rcases h pre r mid body env post x hes hrev hx row.jti old hold (horg'.symm.trans horg)
        with hused | hexpired
      · rw [hused' hused] at hunused
        cases hunused
      · rw [hexp'] at hlive
        exact absurd hlive (not_lt.mpr hexpired)
  have hnone : ¬((next app r (after app pre)).world.store.tokens.get? row.jti).isSome := by
    intro hsome
    rcases mints_of_new hsome with hsome | ⟨⟨user, mbody, menv, rfl, -⟩, -⟩
    · rw [hunknown] at hsome
      cases hsome
    · cases hrev
  have hsome : ((Lib.run (next app) (next app r (after app pre)) mid).world.store.tokens.get?
      row.jti).isSome := by
    rw [← hstate, hrow]
    rfl
  obtain ⟨mid₁, m, mid₂, hmid, hmints⟩ := run_origin (next app)
    (F := fun s => (s.world.store.tokens.get? row.jti).isSome)
    (G := fun s m => Mints app s m row.jti) hnone (fun _ _ => mints_of_new) mid hsome
  refine ⟨mid₁, m, mid₂, hmid, ?_⟩
  rw [hstate]
  exact hmints

/-- An org is revoked and comes back through a token minted for it afterwards. -/
def tokenAfterRevocation : List Event :=
  [Sample.enroll "x" [1] 11, Sample.revoke "x", Sample.mint "x" "a",
    Sample.redeem "x" "a" (List.replicate 9 2) 12]

theorem tokens_renewed_tokenAfterRevocation : TokensRenewed Sample.app tokenAfterRevocation := by
  apply tokens_renewed
  intro pre r mid body env post x hes hrev _ jti row hrow _
  have hstep : (after Sample.app pre, r) ∈ steps Sample.app tokenAfterRevocation :=
    (mem_visits _).mpr ⟨pre, _, hes, rfl⟩
  simp only [steps, tokenAfterRevocation, visits, List.mem_cons, List.not_mem_nil, or_false,
    Prod.mk.injEq] at hstep
  rcases hstep with ⟨-, rfl⟩ | ⟨hpre, rfl⟩ | ⟨-, rfl⟩ | ⟨-, rfl⟩
  · cases hrev
  · have hnone : (after Sample.app pre).world.store.tokens.rows = [] := by
      rw [hpre]
      decide +kernel
    have hmem := Table.get?_mem hrow
    rw [hnone] at hmem
    cases hmem
  · cases hrev
  · cases hrev

/-- A token is minted for an org that the administrator then enrolls and revokes. -/
def tokenOutlivesRevocation : List Event :=
  [Sample.mint "x" "a", Sample.enroll "x" [1] 11, Sample.revoke "x",
    Sample.redeem "x" "a" (List.replicate 9 2) 12]

/-- The token minted before the revocation reinstates the org. -/
theorem old_token_reinstates : ¬TokensRenewed Sample.app tokenOutlivesRevocation := by
  intro h
  have hbefore : ((after Sample.app [Sample.mint "x" "a", Sample.enroll "x" [1] 11,
      Sample.revoke "x"]).world.store.getOrg "x").map (·.status) = some .revoked := by
    decide +kernel
  have hafter : ((after Sample.app tokenOutlivesRevocation).world.store.getOrg "x").map
      (·.status) = some .active := by decide +kernel
  obtain ⟨row, hrow, hrev⟩ := Option.map_eq_some_iff.mp hbefore
  have hre : Reactivates Sample.app (after Sample.app ([Sample.mint "x" "a",
      Sample.enroll "x" [1] 11] ++ Sample.revoke "x" :: []))
      (Sample.redeem "x" "a" (List.replicate 9 2) 12) "x" := by
    refine ⟨⟨_, _, rfl⟩, fun row' hrow' => ?_, Option.map_eq_some_iff.mp hafter⟩
    obtain rfl := Option.some.inj (hrow.symm.trans hrow')
    rw [hrev]
    decide
  obtain ⟨jti, -, mid₁, m, mid₂, hmid, -⟩ := h [Sample.mint "x" "a", Sample.enroll "x" [1] 11]
    (Sample.revoke "x") [] _ [] "x" rfl (by decide +kernel) hre
  simp at hmid

end Tokens

end FlCoordinator
