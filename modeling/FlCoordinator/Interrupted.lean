import FlCoordinator.Completeness
import FlCoordinator.Recovery

/-!
# Requests that stop half way

A redemption commits the token and the org before it has sealed the package, and an approval of a
removal commits the status before the confirmation.
-/

namespace FlCoordinator

open Lib Handler

/-! ### Redemptions that fail -/

section Redemption

variable {app : App} {body : EnrollWithTokenRequest} {env : RedeemEnv} {w : World}

/-- No token was used up, and no org has changed. -/
structure Untouched (s s' : Store) : Prop where
  tokens : ∀ jti row, s.tokens.get? jti = some row → row.consumed = false →
    ∃ row', s'.tokens.get? jti = some row' ∧ row'.consumed = false
  orgs : ∀ x, s'.getOrg x = s.getOrg x

/-- A redemption that does not succeed has done nothing. -/
def FailsCleanly (app : App) (body : EnrollWithTokenRequest) (env : RedeemEnv) (w : World) : Prop :=
  (∀ resp, (enrollWithToken app body env w).1 ≠ .ok resp) →
    Untouched w.store (enrollWithToken app body env w).2.store

lemma Redeemed.not_untouched {jti : Option String} {s t : Store}
    (h : Redeemed body.orgId env.consumedAt jti w.store s) (ht : t.tokens = s.tokens) :
    ¬Untouched w.store t := by
  intro hsame
  obtain ⟨row, -, hrow, -, hfresh, -, rfl⟩ := Store.consumeEnrollToken_ok h.consumed
  obtain ⟨row', hrow', hunused⟩ := hsame.tokens row.jti row hrow hfresh
  rw [ht, Store.get?_consumeTokenRow, if_pos rfl, hrow] at hrow'
  obtain rfl := Option.some.inj hrow'
  cases hunused

/-- Which redemptions fail without a trace. -/
theorem failsCleanly_iff (app : App) (body : EnrollWithTokenRequest) (env : RedeemEnv)
    (w : World) :
    FailsCleanly app body env w ↔ ∀ p s, Presents app body p →
      Redeemed body.orgId env.consumedAt p.jtiText w.store s → Finishes app body env w p := by
  constructor
  · intro h p s hp hred
    by_contra hno
    have hstop := enrollWithToken_stopping hp hred hno
    rw [wp_def] at hstop
    obtain ⟨⟨e, herr⟩, htokens, -⟩ := hstop
    have hfails : ∀ resp, (enrollWithToken app body env w).1 ≠ .ok resp := by
      intro resp hok
      rw [herr] at hok
      cases hok
    exact hred.not_untouched htokens (h hfails)
  · intro h hfails
    by_cases hsome : ∃ p s, Presents app body p ∧
        Redeemed body.orgId env.consumedAt p.jtiText w.store s
    · obtain ⟨p, s, hp, hred⟩ := hsome
      have hend := enrollWithToken_finishing hp hred (h p s hp hred)
      rw [wp_def] at hend
      obtain ⟨⟨resp, hok⟩, -⟩ := hend
      exact absurd hok (hfails resp)
    · have hsame := enrollWithToken_unredeemed fun p s hp hred => hsome ⟨p, s, hp, hred⟩
      rw [wp_def] at hsame
      rw [hsame]
      exact ⟨fun jti row hrow hunused => ⟨row, hrow, hunused⟩, fun x => rfl⟩

/-- An installation whose key exchange refuses a key of zeros, as one of low order. -/
def lowOrderApp : App :=
  { Sample.app with
    host := { Sample.host with
      x25519Exchange := fun priv pub =>
        if pub.all (· = 0) then .error (.valueError "Error computing shared key.")
        else .ok (Sample.xorBytes priv pub) } }

/-- The org redeems its token with an X25519 key of zeros. -/
def lowOrderBody : EnrollWithTokenRequest :=
  Sample.redeemBody "x" "a" (List.replicate 9 0) (by decide)

def lowOrderEnv : RedeemEnv :=
  { consumedAt := 200, enroll := Sample.enrollEnv 12, ephPriv := List.replicate 32 5 }

/-- The token is used up and the org enrolled, and the answer is an error. -/
theorem low_order_key_enrolls :
    ¬∀ es, FailsCleanly lowOrderApp lowOrderBody lowOrderEnv (after lowOrderApp es).world := by
  intro h
  have hfails : ∀ resp, (enrollWithToken lowOrderApp lowOrderBody lowOrderEnv
      (after lowOrderApp [Sample.mint "x" "a"]).world).1 ≠ .ok resp := by
    have herr : (enrollWithToken lowOrderApp lowOrderBody lowOrderEnv
        (after lowOrderApp [Sample.mint "x" "a"]).world).1.isOk = false := by decide +kernel
    intro resp hok
    rw [hok] at herr
    cases herr
  have hsame := (h [Sample.mint "x" "a"] hfails).orgs "x"
  have hbefore : ((after lowOrderApp [Sample.mint "x" "a"]).world.store.getOrg "x").isSome =
      false := by decide +kernel
  have hafter : ((enrollWithToken lowOrderApp lowOrderBody lowOrderEnv
      (after lowOrderApp [Sample.mint "x" "a"]).world).2.store.getOrg "x").isSome = true := by
    decide +kernel
  rw [hsame, hbefore] at hafter
  cases hafter

end Redemption

/-! ### Approvals that crash -/

section Approval

variable {app : App} {user : Option FLUser} {orgId : String} {env : ApproveEnv} {w : World}

/-- `approve_removal` up to its first write. -/
def checkRemoval (app : App) (user : Option FLUser) (orgId : String) : Api (FLUser × Bytes) := do
  let user ← flRequire user "fl_revoke_org"
  let found ← Api.query (·.getOrg orgId)
  let org ← orRaise found (.http 404 s!"Unknown org: {orgId}")
  ensure (org.status = .leavePending) (.http 409
    (s!"org has not requested to leave (status={org.status.text}). " ++
      s!"Use DELETE /fl/orgs/{orgId} to force-revoke."))
  let coordPriv ← orRaise app.coordPriv (.http 503 "Coordinator signing key not loaded")
  pure (user, coordPriv)

/-- The writes of `approve_removal`: the status, the confirmation, the CRL, the audit entry. -/
def removalWrites (app : App) (orgId : String) (env : ApproveEnv) (user : FLUser)
    (coordPriv : Bytes) : List (World → World) :=
  let confirmBytes := buildRemovalConfirmAttestation orgId env.revokedAt
  let sigHex := toHex (sign app.host coordPriv confirmBytes)
  [fun w => w.setStore (w.store.setOrgStatus orgId .revoked),
   fun w => w.setStore (w.store.setRemovalConfirm orgId confirmBytes sigHex),
   fun w => (regenerateCrl app env.crl w).2,
   fun w => w.logAudit app env.loggedAt "fl.org.removal_approved" user.username orgId (.obj [])]

lemma approveRemoval_eq (app : App) (user : Option FLUser) (orgId : String) (env : ApproveEnv) :
    approveRemoval app user orgId env = (do
      let (user, coordPriv) ← checkRemoval app user orgId
      let confirmBytes := buildRemovalConfirmAttestation orgId env.revokedAt
      let sigHex := toHex (sign app.host coordPriv confirmBytes)
      Api.execute (·.setOrgStatus orgId .revoked)
      Api.execute (·.setRemovalConfirm orgId confirmBytes sigHex)
      let _ ← regenerateCrl app env.crl
      Api.log app env.loggedAt "fl.org.removal_approved" user.username orgId (.obj [])
      pure { signedAttestation := confirmBytes, signatureHex := sigHex }) := by
  unfold approveRemoval checkRemoval
  simp only [bind_assoc, pure_bind]

/-- What lets an approval through. -/
structure Approvable (app : App) (user : Option FLUser) (orgId : String) (s : Store) : Prop where
  permitted : Permitted user "fl_revoke_org"
  pending : ∃ row, s.getOrg orgId = some row ∧ row.status = .leavePending
  key : ∃ coordPriv, app.coordPriv = some coordPriv

lemma checkRemoval_spec (app : App) (user : Option FLUser) (orgId : String) (w : World) :
    (checkRemoval app user orgId).wp
      (fun r t => t = w ∧ ∀ p, r = .ok p → Approvable app user orgId w.store ∧
        app.coordPriv = some p.2) w := by
  have hfail : ∀ e : Failure, w = w ∧ ∀ p, (Except.error e : Except Failure (FLUser × Bytes)) =
      .ok p → Approvable app user orgId w.store ∧ app.coordPriv = some p.2 :=
    fun e => ⟨rfl, fun p h => by cases h⟩
  unfold checkRemoval
  apply wp_flRequire_bind (fun _ => hfail)
  intro u hu hperm
  apply wp_query_bind
  apply wp_orRaise_bind (fun _ => hfail _)
  intro org horg
  apply wp_ensure_bind (fun _ => hfail _)
  intro hpending
  apply wp_orRaise_bind (fun _ => hfail _)
  intro coordPriv hkey
  refine ⟨rfl, fun p h => ?_⟩
  obtain rfl := Except.ok.inj h
  exact ⟨⟨⟨u, hu, hperm⟩, ⟨org, horg, hpending⟩, ⟨coordPriv, hkey⟩⟩, hkey⟩

lemma regenerateCrl_ok (crl : CrlEnv) (w : World) : ∃ b, (regenerateCrl app crl w).1 = .ok b := by
  have hspec := @regenerateCrl_spec app w crl
  rw [wp_def] at hspec
  exact hspec.1

lemma approveRemoval_commits {p : FLUser × Bytes} (env : ApproveEnv)
    (h : (checkRemoval app user orgId w).1 = .ok p) :
    (∃ c, (approveRemoval app user orgId env w).1 = .ok c) ∧
      (approveRemoval app user orgId env w).2 =
        commit (removalWrites app orgId env p.1 p.2) w := by
  have hspec : (approveRemoval app user orgId env).wp (fun r t => (∃ c, r = .ok c) ∧
      t = commit (removalWrites app orgId env p.1 p.2) w) w := by
    have hsame := (checkRemoval_spec app user orgId w).1
    rw [approveRemoval_eq, wp_bind, wp_def, h, hsame]
    refine wp_execute_bind (wp_execute_bind ?_)
    rw [wp_bind, wp_def]
    obtain ⟨b, hb⟩ := @regenerateCrl_ok app env.crl ((w.setStore (w.store.setOrgStatus orgId
      .revoked)).setStore ((w.setStore (w.store.setOrgStatus orgId .revoked)).store.setRemovalConfirm
        orgId (buildRemovalConfirmAttestation orgId env.revokedAt)
        (toHex (sign app.host p.2 (buildRemovalConfirmAttestation orgId env.revokedAt)))))
    rw [hb]
    apply wp_log_bind
    exact ⟨⟨_, rfl⟩, rfl⟩
  exact hspec

lemma Approvable.approves (h : Approvable app user orgId w.store) (env : ApproveEnv) :
    ∃ c, (approveRemoval app user orgId env w).1 = .ok c := by
  obtain ⟨row, hrow, hpending⟩ := h.pending
  obtain ⟨coordPriv, hkey⟩ := h.key
  have hcheck : (checkRemoval app user orgId).wp (fun r _ => ∃ p, r = .ok p) w := by
    unfold checkRemoval
    apply wp_flRequire_bind (fun hno => absurd h.permitted hno)
    intro u _ _
    apply wp_query_bind
    apply wp_orRaise_bind_of hrow
    apply wp_ensure_bind_of hpending
    apply wp_orRaise_bind_of hkey
    exact ⟨_, rfl⟩
  obtain ⟨p, hp⟩ := hcheck
  exact (approveRemoval_commits env hp).1

/-- A removal confirmation of the coordinator for the org. -/
def ConfirmsRemoval (app : App) (orgId : String) (att : Bytes) (sig : String) : Prop :=
  ∃ coordPriv revokedAt, app.coordPriv = some coordPriv ∧
    att = buildRemovalConfirmAttestation orgId revokedAt ∧ sig = toHex (sign app.host coordPriv att)

/-- The org's row holds a signed confirmation. -/
def HasConfirmation (app : App) (orgId : String) (s : Store) : Prop :=
  ∃ row att sig, s.getOrg orgId = some row ∧ row.removalAttestation = some att ∧
    row.removalSignature = some sig ∧ ConfirmsRemoval app orgId att sig

/-- `removal-status` answers the org with this confirmation, whenever it recognises the caller. -/
def Serves (app : App) (orgId : String) (att : Bytes) (sig : String) (w : World) : Prop :=
  ∀ req now resp, (removalStatus app req orgId now w).1 = .ok resp →
    resp = { orgId, status := .revoked, removalConfirm := some (att, some sig) }

/-- `removal-status` recognises the API key of the org. -/
def Answers (app : App) (orgId : String) (w : World) : Prop :=
  ∀ req now key row, w.store.getOrg orgId = some row → req.apiKey = some key → key ≠ "" →
    row.apiKeyHash = app.host.sha256hex (encode key) →
    ∃ resp, (removalStatus app req orgId now w).1 = .ok resp

/-- The removal can still be finalized: by the operator, or by the org, which is served its signed
confirmation. -/
def Finalizable (app : App) (user : Option FLUser) (orgId : String) (w : World) : Prop :=
  (∃ row, w.store.getOrg orgId = some row ∧ row.status ≠ .revoked ∧
    ∀ env, ∃ c, (approveRemoval app user orgId env w).1 = .ok c) ∨
  ∃ row att sig, w.store.getOrg orgId = some row ∧ row.status = .revoked ∧
    row.removalAttestation = some att ∧ row.removalSignature = some sig ∧
    ConfirmsRemoval app orgId att sig ∧ Serves app orgId att sig w ∧ Answers app orgId w

/-- After a crash that keeps `k` writes of the approval, and a restart with whatever CRL is loaded
then, the removal can be finalized. -/
def SurvivesCrash (app : App) (user : Option FLUser) (orgId : String) (env : ApproveEnv)
    (w : World) (k : ℕ) : Prop :=
  ∀ p, (checkRemoval app user orgId w).1 = .ok p → ∀ crl,
    Finalizable app user orgId
      { commit ((removalWrites app orgId env p.1 p.2).take k) w with crl := crl }

lemma removalConfirm_ne_nil (orgId revokedAt : String) :
    buildRemovalConfirmAttestation orgId revokedAt ≠ [] := by
  intro hnil
  have hload : ∃ v, Json.loads (buildRemovalConfirmAttestation orgId revokedAt) = .ok v := by
    refine ⟨_, loads_canonicalJson (Json.plain_obj.mpr ⟨by simp, ?_⟩)⟩
    simp [Json.Plain]
  obtain ⟨v, hv⟩ := hload
  have hempty : (Json.loads []).isOk = false := by decide
  rw [hnil] at hv
  rw [hv] at hempty
  cases hempty

lemma serves_of_row {row : OrgRow} {att : Bytes} {sig : String}
    (hrow : w.store.getOrg orgId = some row) (hst : row.status = .revoked)
    (hatt : row.removalAttestation = some att) (hsig : row.removalSignature = some sig)
    (hne : att ≠ []) : Serves app orgId att sig w ∧ Answers app orgId w := by
  have hconfirm : row.removalAttestation.filter (fun b => !b.isEmpty) = some att := by
    rw [hatt]
    simp [hne]
  constructor
  · intro req now resp hok
    have hspec : (removalStatus app req orgId now).wp (fun r _ => ∀ resp, r = .ok resp →
        resp = { orgId, status := .revoked, removalConfirm := some (att, some sig) }) w := by
      unfold removalStatus
      apply wp_query_bind
      apply wp_orRaise_bind_of hrow
      apply wp_read_bind
      apply wp_ensure_bind
      · intro _ resp h
        cases h
      intro _ resp h
      obtain rfl := Except.ok.inj h
      rw [hconfirm, hst, hsig]
      rfl
    exact hspec resp hok
  · intro req now key row' hrow' hkey hne' hhash
    have hspec : (removalStatus app req orgId now).wp (fun r _ => ∃ resp, r = .ok resp) w := by
      unfold removalStatus
      apply wp_query_bind
      apply wp_orRaise_bind_of hrow'
      apply wp_read_bind
      apply wp_ensure_bind_of
      · apply Or.inr
        simp [hkey, hne', hhash]
      · exact ⟨_, rfl⟩
    exact hspec

lemma commit_removalWrites (env : ApproveEnv) (u : FLUser) (coordPriv : Bytes) {k : ℕ}
    (hk : 2 ≤ k) (w : World) :
    (commit ((removalWrites app orgId env u coordPriv).take k) w).store =
      removedStore app coordPriv orgId env w.store := by
  have hcrl : ∀ t : World, (regenerateCrl app env.crl t).2.store = t.store := by
    intro t
    have hspec := @regenerateCrl_spec app t env.crl
    rw [wp_def] at hspec
    exact hspec.2.store
  match k, hk with
  | 2, _ => rfl
  | 3, _ => exact hcrl _
  | k + 4, _ =>
    have hall : (removalWrites app orgId env u coordPriv).take (k + 4) =
        removalWrites app orgId env u coordPriv :=
      List.take_of_length_le (Nat.le_add_left 4 k)
    rw [hall]
    exact hcrl _

lemma SurvivesCrash.hasConfirmation (h : SurvivesCrash app user orgId env w 1)
    (happrovable : Approvable app user orgId w.store) : HasConfirmation app orgId w.store := by
  obtain ⟨row, hrow, hpending⟩ := happrovable.pending
  have hpass : ∃ p, (checkRemoval app user orgId w).1 = .ok p := by
    obtain ⟨c, hc⟩ := happrovable.approves env
    cases hcheck : (checkRemoval app user orgId w).1 with
    | ok p => exact ⟨p, rfl⟩
    | error e =>
      have hfails : (approveRemoval app user orgId env).wp (fun r _ => r = .error e) w := by
        rw [approveRemoval_eq, wp_bind, wp_def, hcheck]
      rw [wp_def, hc] at hfails
      cases hfails
  obtain ⟨p, hp⟩ := hpass
  have hnow : (w.store.setOrgStatus orgId .revoked).getOrg orgId =
      some { row with status := .revoked } := by
    rw [Store.getOrg_setOrgStatus, if_pos rfl, hrow]
    rfl
  rcases h p hp none with ⟨row', hrow', hst, -⟩ | ⟨row', att, sig, hrow', -, hatt, hsig, hconf, -⟩
  · change (w.store.setOrgStatus orgId .revoked).getOrg orgId = some row' at hrow'
    rw [hnow] at hrow'
    obtain rfl := Option.some.inj hrow'
    exact absurd rfl hst
  · change (w.store.setOrgStatus orgId .revoked).getOrg orgId = some row' at hrow'
    rw [hnow] at hrow'
    obtain rfl := Option.some.inj hrow'
    exact ⟨row, att, sig, hrow, hatt, hsig, hconf⟩

/-- Which crashes an approval survives. -/
theorem survivesCrash_iff (app : App) (user : Option FLUser) (orgId : String) (env : ApproveEnv)
    (w : World) (k : ℕ) :
    SurvivesCrash app user orgId env w k ↔
      (Approvable app user orgId w.store → k = 1 → HasConfirmation app orgId w.store) := by
  constructor
  · rintro h happrovable rfl
    exact h.hasConfirmation happrovable
  · intro h p hp crl
    obtain ⟨happrovable, hkey⟩ := (checkRemoval_spec app user orgId w).2 p hp
    obtain ⟨row, hrow, hpending⟩ := happrovable.pending
    match k, h with
    | 0, _ =>
      -- nothing is written yet
      apply Or.inl
      refine ⟨row, hrow, by rw [hpending]; decide, ?_⟩
      exact Approvable.approves
        (w := { w with crl := crl }) ⟨happrovable.permitted, ⟨row, hrow, hpending⟩, ⟨_, hkey⟩⟩
    | 1, h =>
      obtain ⟨row', att, sig, hrow', hatt, hsig, hconf⟩ := h happrovable rfl
      rw [hrow] at hrow'
      obtain rfl := Option.some.inj hrow'
      have hnow : ({ commit ((removalWrites app orgId env p.1 p.2).take 1) w with
          crl := crl } : World).store.getOrg orgId = some { row with status := .revoked } := by
        refine (Store.getOrg_setOrgStatus .revoked orgId).trans ?_
        rw [if_pos rfl, hrow]
        rfl
      obtain ⟨coordPriv, revokedAt, hcoord, rfl, hsigned⟩ := hconf
      have hserved := @serves_of_row app orgId _ _ _ _ hnow rfl hatt hsig
        (removalConfirm_ne_nil orgId revokedAt)
      exact Or.inr ⟨_, _, sig, hnow, rfl, hatt, hsig, ⟨coordPriv, revokedAt, hcoord, rfl, hsigned⟩,
        hserved⟩
    | k + 2, _ =>
      have hnow : ({ commit ((removalWrites app orgId env p.1 p.2).take (k + 2)) w with
          crl := crl } : World).store.getOrg orgId = some { row with
            status := .revoked
            removalAttestation := some (buildRemovalConfirmAttestation orgId env.revokedAt)
            removalSignature := some (toHex (sign app.host p.2
              (buildRemovalConfirmAttestation orgId env.revokedAt))) } := by
        dsimp only
        rw [commit_removalWrites env p.1 p.2 (Nat.le_add_left 2 k), removedStore,
          getOrg_setRemovalConfirm, if_pos rfl, Store.getOrg_setOrgStatus, if_pos rfl, hrow]
        rfl
      have hserved := @serves_of_row app orgId _ _ _ _ hnow rfl rfl rfl
        (removalConfirm_ne_nil orgId env.revokedAt)
      exact Or.inr ⟨_, _, _, hnow, rfl, rfl, rfl, ⟨p.2, env.revokedAt, hkey, rfl, rfl⟩, hserved⟩

/-- An org asks to leave, and the coordinator stops after the first write of the approval: the org
is revoked, the approval is refused from then on, and there is no confirmation to serve. -/
theorem crashed_approval_unfinished :
    ¬∀ es env k, SurvivesCrash Sample.app (some Sample.admin) "x" env
      (after Sample.app es).world k := by
  intro h
  have hstate : ((after Sample.app [Sample.enroll "x" [1] 11,
      Sample.leave "x" [1] 11]).world.store.getOrg "x").map
        (fun r => (r.status, r.removalAttestation)) = some (.leavePending, none) := by
    decide +kernel
  obtain ⟨row, hrow, hfields⟩ := Option.map_eq_some_iff.mp hstate
  obtain ⟨hpending, hnone⟩ := Prod.mk.inj hfields
  have happrovable : Approvable Sample.app (some Sample.admin) "x" (after Sample.app
      [Sample.enroll "x" [1] 11, Sample.leave "x" [1] 11]).world.store :=
    ⟨⟨Sample.admin, rfl, by decide⟩, ⟨row, hrow, hpending⟩, ⟨Sample.coordKey, rfl⟩⟩
  have hcrash := h [Sample.enroll "x" [1] 11, Sample.leave "x" [1] 11]
    { revokedAt := "1970-01-01T00:01:40+00:00", crl := { now := 100, writable := true }
      loggedAt := Sample.zero } 1
  obtain ⟨row', att, sig, hrow', hatt, -⟩ := hcrash.hasConfirmation happrovable
  rw [hrow] at hrow'
  obtain rfl := Option.some.inj hrow'
  rw [hnone] at hatt
  cases hatt

end Approval

end FlCoordinator
