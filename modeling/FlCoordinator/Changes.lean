import FlCoordinator.System

/-!
# What an event changes in each table

Consequences of `next_effect`, one table at a time. Every invariant of the later files is
proved from these, without unfolding a handler.
-/

namespace FlCoordinator

open Lib Handler

section Changes

variable {app : App} {s : Sys}

/-! ### Frame -/

inductive TableName
  | orgs
  | rounds
  | challenges
  | tokens
  | contributions
  | globalModels
  deriving DecidableEq

/-- The tables an event can write. An aggregation also writes the trust columns of orgs. -/
def Event.writes : Event → List TableName
  | .enroll .. => [.orgs]
  | .mintToken .. => [.tokens]
  | .redeemToken .. => [.tokens, .orgs]
  | .block .. => [.orgs]
  | .unblock .. => [.orgs]
  | .revoke .. => [.orgs]
  | .leaveRequest .. => [.orgs]
  | .approveRemoval .. => [.orgs]
  | .startRound .. => [.rounds]
  | .challenge .. => [.challenges]
  | .contribute _ => []
  | .resume .. => [.challenges, .contributions]
  | .aggregate .. => [.rounds, .globalModels]
  | .publish .. => [.globalModels, .rounds]
  | .rollback .. => [.globalModels]

/-- Every table that an event does not write is the same in `s` and `t`. -/
structure Frame (e : Event) (s t : Store) : Prop where
  orgs : .orgs ∉ e.writes → ∀ x, (t.getOrg x).map OrgRow.core = (s.getOrg x).map OrgRow.core
  rounds : .rounds ∉ e.writes → t.rounds = s.rounds
  challenges : .challenges ∉ e.writes → t.challenges = s.challenges
  tokens : .tokens ∉ e.writes → t.tokens = s.tokens
  contributions : .contributions ∉ e.writes → t.contributions = s.contributions
  globalModels : .globalModels ∉ e.writes → t.globalModels = s.globalModels

namespace Frame

variable {e : Event} {s t u : Store}

lemma refl (e : Event) (s : Store) : Frame e s s :=
  ⟨fun _ _ => rfl, fun _ => rfl, fun _ => rfl, fun _ => rfl, fun _ => rfl, fun _ => rfl⟩

lemma trans (h : Frame e s t) (h' : Frame e t u) : Frame e s u where
  orgs hno x := (h'.orgs hno x).trans (h.orgs hno x)
  rounds hno := (h'.rounds hno).trans (h.rounds hno)
  challenges hno := (h'.challenges hno).trans (h.challenges hno)
  tokens hno := (h'.tokens hno).trans (h.tokens hno)
  contributions hno := (h'.contributions hno).trans (h.contributions hno)
  globalModels hno := (h'.globalModels hno).trans (h.globalModels hno)

lemma of_trustOnly (h : TrustOnly s t) : Frame e s t :=
  ⟨fun _ => h.orgs, fun _ => h.rounds, fun _ => h.challenges, fun _ => h.tokens,
    fun _ => h.contributions, fun _ => h.globalModels⟩

lemma setOrgs (orgs : Table OrgRow.orgId) (he : .orgs ∈ e.writes) :
    Frame e s { s with orgs } :=
  ⟨fun hno => absurd he hno, fun _ => rfl, fun _ => rfl, fun _ => rfl, fun _ => rfl, fun _ => rfl⟩

lemma setRounds (rounds : AutoTable RoundRow.roundId) (he : .rounds ∈ e.writes) :
    Frame e s { s with rounds } :=
  ⟨fun _ _ => rfl, fun hno => absurd he hno, fun _ => rfl, fun _ => rfl, fun _ => rfl,
    fun _ => rfl⟩

lemma setChallenges (challenges : Table ChallengeRow.challenge) (he : .challenges ∈ e.writes) :
    Frame e s { s with challenges } :=
  ⟨fun _ _ => rfl, fun _ => rfl, fun hno => absurd he hno, fun _ => rfl, fun _ => rfl,
    fun _ => rfl⟩

lemma setTokens (tokens : Table TokenRow.jti) (he : .tokens ∈ e.writes) :
    Frame e s { s with tokens } :=
  ⟨fun _ _ => rfl, fun _ => rfl, fun _ => rfl, fun hno => absurd he hno, fun _ => rfl,
    fun _ => rfl⟩

lemma setContributions (contributions : AutoTable ContributionRow.contributionId)
    (he : .contributions ∈ e.writes) : Frame e s { s with contributions } :=
  ⟨fun _ _ => rfl, fun _ => rfl, fun _ => rfl, fun _ => rfl, fun hno => absurd he hno,
    fun _ => rfl⟩

lemma setGlobalModels (globalModels : AutoTable GlobalModelRow.versionId)
    (he : .globalModels ∈ e.writes) : Frame e s { s with globalModels } :=
  ⟨fun _ _ => rfl, fun _ => rfl, fun _ => rfl, fun _ => rfl, fun _ => rfl,
    fun hno => absurd he hno⟩

end Frame

/-- An event changes no table but those it writes. -/
theorem Effect.frame {e : Event} {t : World} (h : Effect app s e t) :
    Frame e s.world.store t.store := by
  cases h with
  | idle store crl =>
    rw [store]
    exact .refl e _
  | enroll done crl =>
    obtain ⟨en, -, h⟩ := done.row
    rw [h]
    exact .setOrgs _ (by simp [Event.writes])
  | mint done crl =>
    obtain ⟨tokens, h, -⟩ := Store.createEnrollToken_ok done.created
    rw [h]
    exact .setTokens _ (by simp [Event.writes])
  | burnToken jti redeemed crl =>
    obtain ⟨row, -, -, -, -, -, h⟩ := Store.consumeEnrollToken_ok redeemed.consumed
    rw [h]
    exact .setTokens _ (by simp [Event.writes])
  | redeem jti mid redeemed done crl =>
    obtain ⟨row, -, -, -, -, -, hmid⟩ := Store.consumeEnrollToken_ok redeemed.consumed
    obtain ⟨en, -, h⟩ := done.row
    rw [h, hmid]
    exact (Frame.setTokens _ (by simp [Event.writes])).trans (.setOrgs _ (by simp [Event.writes]))
  | block done crl =>
    rw [done.store]
    exact .setOrgs _ (by simp [Event.writes])
  | unblock done crl =>
    rw [done.store]
    exact .setOrgs _ (by simp [Event.writes])
  | revoke done rebuilt =>
    rw [done.store]
    exact .setOrgs _ (by simp [Event.writes])
  | leave caller done crl =>
    rw [done.store]
    exact .setOrgs _ (by simp [Event.writes])
  | remove done =>
    obtain ⟨coordPriv, -, h⟩ := done.store
    rw [h]
    exact .setOrgs _ (by simp [Event.writes])
  | start done crl =>
    obtain ⟨username, h⟩ := done.store
    obtain ⟨rounds, hopen, -⟩ := Store.openRound_eq s.world.store _ username _ _ _
    rw [h, hopen]
    exact .setRounds _ (by simp [Event.writes])
  | challenge done crl =>
    obtain ⟨orgId, -, -, h⟩ := done.caller
    obtain ⟨challenges, h, -⟩ := Store.issueChallenge_ok h
    rw [h]
    exact .setChallenges _ (by simp [Event.writes])
  | finish p r pending outcome =>
    have hchallenges : ∀ i env challenge, Frame (.resume i env) s.world.store
        (s.world.store.consumeChallengeRow challenge env.consumedAt) :=
      fun i env challenge => .setChallenges _ (by simp [Event.writes])
    have hcontributions : ∀ i env s' c, Frame (.resume i env) s'
        (Store.recordContribution s' c env.recordedAt).2 :=
      fun i env s' c => .setContributions _ (by simp [Event.writes])
    cases outcome with
    | refused e no => exact .refl _ _
    | burned e t no challenge consumes store files crl =>
      rw [store]
      exact hchallenges _ _ _
    | rejected e t no challenge n consumes store files crl =>
      rw [store]
      exact (hchallenges _ _ _).trans (hcontributions _ _ _ _)
    | accepted resp t chal n evidence store files crl =>
      rw [store]
      exact (hchallenges _ _ _).trans (hcontributions _ _ _ _)
  | score trust crl => exact .of_trustOnly trust
  | aggregate resp done =>
    obtain ⟨done⟩ := done
    obtain ⟨rounds, versions, hstage, -⟩ := stagedStore_frame app done.row _
      (s.world.store.getAcceptedModels _).length done.gate done.bytes done.info _
      done.scoredWorld.store
    rw [done.store, hstage]
    exact ((Frame.of_trustOnly done.scored.frame.1).trans
      (.setRounds rounds (by simp [Event.writes]))).trans
      (.setGlobalModels versions (by simp [Event.writes]))
  | publish done crl =>
    obtain ⟨g, username, -, -, h⟩ := done.staged
    obtain ⟨versions, hprom⟩ := Store.promoteGlobalModel_frame s.world.store _
      g.versionId username
    rw [h, hprom]
    exact (Frame.setGlobalModels versions (by simp [Event.writes])).trans
      (.setRounds _ (by simp [Event.writes]))
  | rollback done crl =>
    obtain ⟨g, username, -, -, h⟩ := done.target
    obtain ⟨versions, hprom⟩ := Store.promoteGlobalModel_frame s.world.store _
      _ username
    rw [h, hprom]
    exact .setGlobalModels versions (by simp [Event.writes])

/-! ### Orgs -/

/-- The org, the key and the draws of an event that enrolls. -/
def Event.enrollment : Event → Option (String × String × EnrollEnv)
  | .enroll _ body env => some (body.orgId, body.publicKeyPem, env)
  | .redeemToken body env => some (body.orgId, body.ed25519PubPem, env.enroll)
  | _ => none

/-- The org and the status that a permitted block, unblock or revoke sets. -/
def Event.statusSet : Event → Option (String × OrgStatus)
  | .block (some u) x _ => if "fl_block_org" ∈ u.role.permissions then some (x, .blocked) else none
  | .unblock (some u) x _ =>
    if "fl_unblock_org" ∈ u.role.permissions then some (x, .active) else none
  | .revoke (some u) x _ _ =>
    if "fl_revoke_org" ∈ u.role.permissions then some (x, .revoked) else none
  | _ => none

/-- The row of an org that has asked to leave. -/
def OrgRow.leaving (r : OrgRow) (attestation : Bytes) (signature : String) (now : ℚ) : OrgRow :=
  { r with
    status := .leavePending
    leaveRequestedAt := some now
    leaveAttestation := some attestation
    leaveSignature := some signature }

/-- The row of an org whose removal was confirmed. -/
def OrgRow.removed (r : OrgRow) (attestation : Bytes) (signature : String) : OrgRow :=
  { r with
    status := .revoked
    removalAttestation := some attestation
    removalSignature := some signature }

/-- How an event changed the row of the org `x` from `old` to `new`; the trust columns may
change in any case. -/
inductive RowMove (app : App) (e : Event) (x : String) (old new : Option OrgRow) : Prop
  | kept (core : new.map OrgRow.core = old.map OrgRow.core)
  | enrolled (pem : String) (env : EnrollEnv) (en : Store.Enrollment)
      (event : e.enrollment = some (x, pem, env))
      (free : ∀ row, old = some row → row.status = .revoked)
      (installs : Installs app x pem env en) (row : new = some (en.row env.enrolledAt))
  | status (row : OrgRow) (st : OrgStatus) (event : e.statusSet = some (x, st))
      (old : old = some row) (new : new = some { row with status := st })
  | left (req : Request) (body : LeaveRequestBody) (env : LeaveEnv) (row : OrgRow)
      (event : e = .leaveRequest req x body env) (old : old = some row)
      (asked : row.status ≠ .revoked)
      (evidence : LeaveEvidence app x row.publicKeyPem (encode body.attestation)
        body.signature)
      (new : new = some (row.leaving (encode body.attestation) body.signature env.requestedAt))
  | removed (user : Option FLUser) (env : ApproveEnv) (coordPriv : Bytes) (row : OrgRow)
      (event : e = .approveRemoval user x env) (key : app.coordPriv = some coordPriv)
      (old : old = some row) (leaving : row.status = .leavePending)
      (new : new = some (row.removed (buildRemovalConfirmAttestation x env.revokedAt)
        (toHex (sign app.host coordPriv (buildRemovalConfirmAttestation x env.revokedAt)))))

lemma rowMove_of_enrolled {s t : Store} {e : Event} {x y pem : String} {env : EnrollEnv}
    (he : e.enrollment = some (y, pem, env)) (h : Enrolled app y pem env s t) :
    RowMove app e x (s.getOrg x) (t.getOrg x) := by
  obtain ⟨en, hen, rfl⟩ := h.row
  by_cases hx : en.orgId = x
  · have hy : y = x := hen.org.symm.trans hx
    subst hy
    refine .enrolled pem env en he (Store.enrollConflict_eq_none.mp h.free) hen ?_
    rw [Store.getOrg_insertOrg, if_pos hx]
  · refine .kept ?_
    rw [Store.getOrg_insertOrg, if_neg hx]

lemma rowMove_of_statusSet {permission : String} {st : OrgStatus} {user : Option FLUser}
    {e : Event} {w t : World} {x y : String} (he : ∀ u, user = some u →
      permission ∈ u.role.permissions → e.statusSet = some (y, st))
    (h : StatusSet permission st user y w t) :
    RowMove app e x (w.store.getOrg x) (t.store.getOrg x) := by
  have hget : t.store.getOrg x =
      if y = x then (w.store.getOrg x).map (fun r => { r with status := st })
      else w.store.getOrg x := by
    rw [h.store, Store.getOrg_setOrgStatus]
  by_cases hx : y = x
  · subst hx
    obtain ⟨u, hu, hperm⟩ := h.permitted
    obtain ⟨row, hrow⟩ := Option.isSome_iff_exists.mp h.known
    refine .status row st (he u hu hperm) hrow ?_
    rw [hget, if_pos rfl, hrow]
    rfl
  · refine .kept ?_
    rw [hget, if_neg hx]

lemma getOrg_setLeaveRequest (s : Store) (y : String) (att : Bytes) (sig : String) (now : ℚ)
    (x : String) :
    (s.setLeaveRequest y att sig now).getOrg x =
      if y = x then (s.getOrg x).map (fun r => r.leaving att sig now) else s.getOrg x :=
  Table.get?_update s.orgs y x (fun r => r.leaving att sig now) fun _ => rfl

lemma getOrg_setRemovalConfirm {s : Store} {y : String} {att : Bytes} {sig : String}
    (x : String) :
    (s.setRemovalConfirm y att sig).getOrg x = if y = x then (s.getOrg x).map (fun r =>
      { r with removalAttestation := some att, removalSignature := some sig }) else s.getOrg x :=
  Table.get?_update s.orgs y x (fun r =>
    { r with removalAttestation := some att, removalSignature := some sig }) fun _ => rfl

lemma getOrg_removedStore (app : App) (coordPriv : Bytes) (s : Store) (y : String)
    (env : ApproveEnv) (x : String) :
    (removedStore app coordPriv y env s).getOrg x = if y = x then (s.getOrg x).map (fun r =>
      r.removed (buildRemovalConfirmAttestation y env.revokedAt) (toHex (sign app.host coordPriv
        (buildRemovalConfirmAttestation y env.revokedAt)))) else s.getOrg x := by
  rw [removedStore, getOrg_setRemovalConfirm, Store.getOrg_setOrgStatus]
  split
  · rw [Option.map_map]
    rfl
  · rfl

lemma rowMove_of_left {req : Request} {body : LeaveRequestBody} {env : LeaveEnv} {w t : World}
    {x y : String} (h : LeaveRequested app y body env.requestedAt w t) :
    RowMove app (.leaveRequest req y body env) x (w.store.getOrg x) (t.store.getOrg x) := by
  have hget := getOrg_setLeaveRequest w.store y (encode body.attestation) body.signature
    env.requestedAt x
  rw [← h.store] at hget
  by_cases hx : y = x
  · subst hx
    obtain ⟨row, hrow, hst, hevidence⟩ := h.org
    rw [if_pos rfl, hrow] at hget
    exact .left req body env row rfl hrow hst hevidence hget
  · refine .kept ?_
    rw [hget, if_neg hx]

lemma rowMove_of_removed {user : Option FLUser} {env : ApproveEnv} {w t : World} {x y : String}
    (h : Removed app user y env w t) :
    RowMove app (.approveRemoval user y env) x (w.store.getOrg x) (t.store.getOrg x) := by
  obtain ⟨coordPriv, hkey, hstore⟩ := h.store
  have hget := getOrg_removedStore app coordPriv w.store y env x
  rw [← hstore] at hget
  by_cases hx : y = x
  · subst hx
    obtain ⟨row, hrow, hst⟩ := h.pending
    rw [if_pos rfl, hrow] at hget
    exact .removed user env coordPriv row rfl hkey hrow hst hget
  · refine .kept ?_
    rw [hget, if_neg hx]

/-- What an event does to a row of `orgs`. -/
theorem Effect.rowMove {e : Event} {t : World} (h : Effect app s e t) (x : String) :
    RowMove app e x (s.world.store.getOrg x) (t.store.getOrg x) := by
  by_cases hw : .orgs ∈ e.writes
  · cases h with
    | idle store crl => exact .kept (by rw [store])
    | enroll done crl => exact rowMove_of_enrolled rfl done
    | burnToken jti redeemed crl =>
      obtain ⟨row, -, -, -, -, -, h⟩ := Store.consumeEnrollToken_ok redeemed.consumed
      exact .kept (by rw [h]; rfl)
    | redeem jti mid redeemed done crl =>
      obtain ⟨row, -, -, -, -, -, h⟩ := Store.consumeEnrollToken_ok redeemed.consumed
      subst h
      exact rowMove_of_enrolled (s := s.world.store.consumeTokenRow row.jti _) rfl done
    | block done crl =>
      refine rowMove_of_statusSet (fun u hu hperm => ?_) done
      rw [hu, Event.statusSet, if_pos hperm]
    | unblock done crl =>
      refine rowMove_of_statusSet (fun u hu hperm => ?_) done
      rw [hu, Event.statusSet, if_pos hperm]
    | revoke done rebuilt =>
      refine rowMove_of_statusSet (fun u hu hperm => ?_) done
      rw [hu, Event.statusSet, if_pos hperm]
    | leave caller done crl => exact rowMove_of_left done
    | remove done => exact rowMove_of_removed done
    | _ => simp [Event.writes] at hw
  · exact .kept (h.frame.orgs hw x)

lemma isSome_getOrg_next {x : String} (e : Event) (h : (s.world.store.getOrg x).isSome) :
    ((next app e s).world.store.getOrg x).isSome := by
  cases (next_effect app s e).rowMove x with
  | kept core => simpa [h] using congrArg Option.isSome core
  | enrolled pem env en event free installs row => simp [row]
  | status row st event old new => simp [new]
  | left req body env row event old asked evidence new => simp [new]
  | removed user env coordPriv row event key old leaving new => simp [new]

/-! ### Enrollment tokens -/

/-- How an event changed the row of the token `jti` from `old` to `new`. -/
inductive TokenMove (e : Event) (jti : String) (old new : Option TokenRow) : Prop
  | kept (same : new = old)
  | minted (user : Option FLUser) (body : EnrollTokenRequest) (env : MintEnv) (row : TokenRow)
      (event : e = .mintToken user body env) (drawn : env.jti = jti) (org : row.orgId = body.orgId)
      (fresh : old = none) (new : new = some row)
  | consumed (body : EnrollWithTokenRequest) (env : RedeemEnv) (row : TokenRow)
      (event : e = .redeemToken body env) (old : old = some row) (org : row.orgId = body.orgId)
      (unused : row.consumed = false) (live : env.consumedAt < row.expiresAt)
      (new : new = some { row with consumed := true, consumedAt := some env.consumedAt })

lemma tokenMove_of_redeemed {body : EnrollWithTokenRequest} {env : RedeemEnv}
    {jti' : Option String} {s t : Store} (jti : String)
    (h : Redeemed body.orgId env.consumedAt jti' s t) :
    TokenMove (.redeemToken body env) jti (s.tokens.get? jti) (t.tokens.get? jti) := by
  obtain ⟨row, -, hrow, horg, hunused, hlive, rfl⟩ := Store.consumeEnrollToken_ok h.consumed
  have hget := Store.get?_consumeTokenRow s row.jti env.consumedAt jti
  by_cases hj : row.jti = jti
  · subst hj
    refine .consumed body env row rfl hrow horg hunused hlive ?_
    rw [hget, if_pos rfl, hrow]
    rfl
  · refine .kept ?_
    rw [hget, if_neg hj]

/-- What an event does to a row of `enrollment_tokens`. -/
theorem Effect.tokenMove {e : Event} {t : World} (h : Effect app s e t) (jti : String) :
    TokenMove e jti (s.world.store.tokens.get? jti) (t.store.tokens.get? jti) := by
  by_cases hw : .tokens ∈ e.writes
  · cases h with
    | idle store crl => exact .kept (by rw [store])
    | @mint user body env t done crl =>
      obtain ⟨tokens, h, hfresh, hget⟩ := Store.createEnrollToken_ok done.created
      have hnew : t.store.tokens.get? jti = tokens.get? jti := by rw [h]
      rw [hget] at hnew
      by_cases hj : env.jti = jti
      · subst hj
        rw [if_pos rfl] at hnew
        exact .minted user body env _ rfl rfl rfl hfresh hnew
      · rw [if_neg hj] at hnew
        exact .kept hnew
    | burnToken jti' redeemed crl => exact tokenMove_of_redeemed jti redeemed
    | redeem jti' mid redeemed done crl =>
      obtain ⟨en, -, h⟩ := done.row
      have hmove := tokenMove_of_redeemed jti redeemed
      rw [h]
      exact hmove
    | _ => simp [Event.writes] at hw
  · exact .kept (by rw [h.frame.tokens hw])

/-! ### Challenges -/

/-- How an event changed the row of a challenge from `old` to `new`. -/
inductive ChallengeMove (app : App) (s : Sys) (e : Event) (challenge : String)
    (old new : Option ChallengeRow) : Prop
  | kept (same : new = old)
  | issued (req : Request) (env : ChallengeEnv) (row : ChallengeRow)
      (event : e = .challenge req row.roundId env) (drawn : env.challenge = challenge)
      (caller : getAuthenticatedOrgId app req s.world env.authAt = .ok row.orgId)
      (fresh : old = none) (new : new = some row)
  | consumed (row : ChallengeRow) (now : ℚ) (old : old = some row)
      (new : new = some { row with consumed := true, consumedAt := some now })

lemma challengeMove_of_consumed {e : Event} {st : Store} (burnt challenge : String) (now : ℚ) :
    ChallengeMove app s e challenge (st.challenges.get? challenge)
      ((st.consumeChallengeRow burnt now).challenges.get? challenge) := by
  have hget := Store.get?_consumeChallengeRow st burnt now challenge
  cases hrow : st.challenges.get? challenge with
  | none =>
    refine .kept ?_
    rw [hget, hrow]
    split <;> rfl
  | some row =>
    rw [hrow] at hget
    by_cases hb : burnt = challenge
    · rw [if_pos hb] at hget
      exact .consumed row now rfl hget
    · rw [if_neg hb] at hget
      exact .kept hget

/-- What an event does to a row of `challenges`. -/
theorem Effect.challengeMove {e : Event} {t : World} (h : Effect app s e t) (challenge : String) :
    ChallengeMove app s e challenge (s.world.store.challenges.get? challenge)
      (t.store.challenges.get? challenge) := by
  by_cases hw : .challenges ∈ e.writes
  · cases h with
    | idle store crl => exact .kept (by rw [store])
    | @challenge req roundId env t done crl =>
      obtain ⟨orgId, hauth, -, h⟩ := done.caller
      obtain ⟨challenges, h, hfresh, hget⟩ := Store.issueChallenge_ok h
      have hnew : t.store.challenges.get? challenge = challenges.get? challenge := by rw [h]
      rw [hget] at hnew
      by_cases hc : env.challenge = challenge
      · rw [if_pos hc] at hnew
        exact .issued req env _ rfl hc hauth (hc ▸ hfresh) hnew
      · rw [if_neg hc] at hnew
        exact .kept hnew
    | finish p r pending outcome =>
      cases outcome with
      | refused e no => exact .kept rfl
      | burned e t no burnt consumes store files crl =>
        rw [store]
        exact challengeMove_of_consumed _ _ _
      | rejected e t no burnt n consumes store files crl =>
        rw [store]
        exact challengeMove_of_consumed _ _ _
      | accepted resp t chal n evidence store files crl =>
        rw [store]
        exact challengeMove_of_consumed _ _ _
    | _ => simp [Event.writes] at hw
  · exact .kept (by rw [h.frame.challenges hw])

/-! ### Contributions -/

/-- A resumed request whose remaining checks pass. -/
structure Accepts (app : App) (s : Sys) (e : Event) (p : Pending) (env : ContributeEnv)
    (chal : ChallengeRow) (numExamples : ℤ) : Prop where
  event : ∃ i, e = .resume i env ∧ s.inFlight[i]? = some p
  evidence : Evidence app p env s.world chal numExamples

/-- The row an accepted request leaves. -/
def acceptedRow (app : App) (s : Sys) (p : Pending) (env : ContributeEnv) (chal : ChallengeRow)
    (numExamples : ℤ) : ContributionRow :=
  (acceptedContribution app p chal.challenge numExamples).row env.recordedAt
    (s.world.store.contributions.seq + 1)

/-- The row a request with a wrong signature leaves. -/
def rejectedRow (app : App) (s : Sys) (p : Pending) (env : ContributeEnv) (challenge : String)
    (numExamples : ℤ) : ContributionRow :=
  (rejectedContribution app p challenge numExamples).row env.recordedAt
    (s.world.store.contributions.seq + 1)

/-- The event resumes a request that consumes the challenge. -/
def Spends (app : App) (s : Sys) (e : Event) (challenge : String) : Prop :=
  ∃ i env p, e = .resume i env ∧ s.inFlight[i]? = some p ∧
    ConsumesChallenge app p env s.world challenge

/-- A row after an event was there before, or was left by a request that consumed its challenge. -/
theorem Effect.recorded {e : Event} {t : World} (h : Effect app s e t) {c : ContributionRow}
    (hc : c ∈ t.store.contributions.rows) :
    c ∈ s.world.store.contributions.rows ∨ ∃ i env p, e = .resume i env ∧
      s.inFlight[i]? = some p ∧ ConsumesChallenge app p env s.world c.challenge ∧
      ((∃ n, c = rejectedRow app s p env c.challenge n) ∨
        ∃ chal n, Evidence app p env s.world chal n ∧ c = acceptedRow app s p env chal n) := by
  by_cases hw : .contributions ∈ e.writes
  · cases h with
    | idle store crl =>
      rw [store] at hc
      exact Or.inl hc
    | @finish i env t p r pending outcome =>
      cases outcome with
      | refused e no => exact Or.inl hc
      | burned e t no burnt consumes store files crl =>
        rw [store] at hc
        exact Or.inl hc
      | rejected e t no burnt n consumes store files crl =>
        rw [store, Store.mem_recordContribution] at hc
        rcases hc with hc | rfl
        · exact Or.inl hc
        · exact Or.inr ⟨i, env, p, rfl, pending, consumes, Or.inl ⟨n, rfl⟩⟩
      | accepted resp t chal n evidence store files crl =>
        rw [store, Store.mem_recordContribution] at hc
        rcases hc with hc | rfl
        · exact Or.inl hc
        · exact Or.inr ⟨i, env, p, rfl, pending, evidence.consumesChallenge,
            Or.inr ⟨chal, n, evidence, rfl⟩⟩
    | _ => simp [Event.writes] at hw
  · rw [h.frame.contributions hw] at hc
    exact Or.inl hc

/-- A row after an event was there before, is a refused one, or records an accepted request. -/
theorem Effect.contribution {e : Event} {t : World} (h : Effect app s e t) {c : ContributionRow}
    (hc : c ∈ t.store.contributions.rows) :
    c ∈ s.world.store.contributions.rows ∨ c.accepted = false ∨
      ∃ p env chal n, Accepts app s e p env chal n ∧ c = acceptedRow app s p env chal n := by
  rcases h.recorded hc with hold | ⟨i, env, p, rfl, hp, -, ⟨n, hrow⟩ | ⟨chal, n, hev, hrow⟩⟩
  · exact Or.inl hold
  · rw [hrow]
    exact Or.inr (Or.inl rfl)
  · exact Or.inr (Or.inr ⟨p, env, chal, n, ⟨⟨i, rfl, hp⟩, hev⟩, hrow⟩)

lemma Effect.contribution_kept {e : Event} {t : World} (h : Effect app s e t)
    {c : ContributionRow} (hc : c ∈ s.world.store.contributions.rows) :
    c ∈ t.store.contributions.rows := by
  by_cases hw : .contributions ∈ e.writes
  · cases h with
    | idle store crl =>
      rw [store]
      exact hc
    | finish p r pending outcome =>
      cases outcome with
      | refused e no => exact hc
      | burned e t no burnt consumes store files crl =>
        rw [store]
        exact hc
      | rejected e t no burnt n consumes store files crl =>
        rw [store, Store.mem_recordContribution]
        exact Or.inl hc
      | accepted resp t chal n evidence store files crl =>
        rw [store, Store.mem_recordContribution]
        exact Or.inl hc
    | _ => simp [Event.writes] at hw
  · rw [h.frame.contributions hw]
    exact hc

lemma evidence_unique {p : Pending} {env : ContributeEnv} {w : World} {chal chal' : ChallengeRow}
    {n n' : ℤ} (h : Evidence app p env w chal n) (h' : Evidence app p env w chal' n') :
    chal = chal' ∧ n = n' := by
  obtain ⟨v, hv, hb⟩ := h.named
  obtain ⟨v', hv', hb'⟩ := h'.named
  rw [hv] at hv'
  obtain rfl := Except.ok.inj hv'
  rw [hb] at hb'
  have hkey : chal.challenge = chal'.challenge := Option.some.inj (Except.ok.inj hb')
  have hstored := h.stored
  rw [hkey, h'.stored] at hstored
  obtain ⟨x, hx, hn, -⟩ := h.count
  obtain ⟨x', hx', hn', -⟩ := h'.count
  rw [hx] at hx'
  obtain rfl := Except.ok.inj hx'
  rw [hn] at hn'
  exact ⟨(Option.some.inj hstored).symm, Except.ok.inj hn'⟩

/-- A request whose remaining checks pass is recorded, and its upload stored. -/
theorem Accepts.recorded {e : Event} {p : Pending} {env : ContributeEnv} {chal : ChallengeRow}
    {n : ℤ} (h : Accepts app s e p env chal n) :
    acceptedRow app s p env chal n ∈ (next app e s).world.store.contributions.rows ∧
      (next app e s).world.files (contributionPath app.modelDir p.roundId p.orgId
        (app.host.sha256hex p.upload)) = some p.upload := by
  obtain ⟨i, rfl, hp⟩ := h.event
  have hspec : FinishOutcome app p env s.world (contributeFinish app p env s.world).1
      (contributeFinish app p env s.world).2 := contributeFinish_spec
  have hworld : (next app (.resume i env) s).world = (contributeFinish app p env s.world).2 := by
    simp only [next, hp]
  rw [hworld]
  generalize (contributeFinish app p env s.world).1 = r at hspec
  generalize (contributeFinish app p env s.world).2 = t at hspec
  cases hspec with
  | refused e no => exact absurd h.evidence.consumesChallenge (no _)
  | burned e t no burnt consumes store files crl => exact absurd ⟨chal, n, h.evidence⟩ no
  | rejected e t no burnt m consumes store files crl => exact absurd ⟨chal, n, h.evidence⟩ no
  | accepted resp t chal' n' evidence store files crl =>
    obtain ⟨rfl, rfl⟩ := evidence_unique h.evidence evidence
    refine ⟨?_, ?_⟩
    · rw [store, Store.mem_recordContribution]
      exact Or.inr rfl
    · rw [files, Function.update_self]

/-! ### Suspended requests -/

lemma mem_inFlight_next {e : Event} {p : Pending} (h : p ∈ (next app e s).inFlight) :
    p ∈ s.inFlight ∨ ∃ c, e = .contribute c ∧ Screened app c s.world p := by
  cases e with
  | contribute c =>
    have hspec := (contributeStart_spec app s.world c).2
    simp only [next] at h
    split at h
    · rename_i q t heq
      rw [heq] at hspec
      rcases List.mem_append.mp h with h | h
      · exact Or.inl h
      · rw [List.mem_singleton.mp h]
        exact Or.inr ⟨c, rfl, hspec q rfl⟩
    · exact Or.inl h
  | resume i env =>
    simp only [next] at h
    split at h
    · exact Or.inl h
    · exact Or.inl (List.mem_of_mem_eraseIdx h)
  | _ => exact Or.inl h

/-! ### Rounds and versions of the global model -/

/-- The row of a round whose model was published. -/
def completedRow (now : ℚ) (r : RoundRow) : RoundRow :=
  { r with status := .completed, completedAt := some now }

/-- How an event changed the rounds and the versions. -/
inductive LifecycleMove (app : App) (s : Sys) (e : Event) (t : World) : Prop
  | kept (rounds : ∀ k, t.store.getRound k = s.world.store.getRound k)
      (versions : ∀ j, t.store.getGlobalModel j = s.world.store.getGlobalModel j)
  | opened (user : Option FLUser) (body : StartRoundRequest) (env : StartRoundEnv)
      (username : String) (event : e = .startRound user body env)
      (rounds : ∀ k, t.store.getRound k = if k = s.world.store.rounds.seq + 1 then
        some (Store.openedRow username (body.params app.observationHours)
          (invitedOrgs s.world.store body.targetOrgIds).length env.startedAt
          (announcementOf app body env
            ((invitedOrgs s.world.store body.targetOrgIds).map (·.orgId)) k) k)
        else s.world.store.getRound k)
      (versions : ∀ j, t.store.getGlobalModel j = s.world.store.getGlobalModel j)
  | staged (user : Option FLUser) (roundId : ℤ) (env : AggregateEnv) (resp : AggregateResponse)
      (event : e = .aggregate user roundId env)
      (done : Aggregated app user roundId env s.world resp t)
      (rounds : ∀ k, t.store.getRound k = if roundId = k then
        some (aggregatedRow app (s.world.store.getAcceptedModels roundId).length done.gate
          done.bytes done.info done.row) else s.world.store.getRound k)
      (versions : ∀ j, t.store.getGlobalModel j = if j = s.world.store.globalModels.seq + 1 then
        some (stagedVersion app done.row roundId done.gate done.bytes done.info env j)
        else s.world.store.getGlobalModel j)
  | published (user : Option FLUser) (roundId : ℤ) (env : PublishEnv) (g : GlobalModelRow)
      (username : String) (event : e = .publish user roundId env)
      (staged : s.world.store.getStagedModelForRound roundId = some g)
      (soaked : g.stagedUntil ≤ env.now)
      (rounds : ∀ k, t.store.getRound k = if roundId = k then
        (s.world.store.getRound k).map (completedRow env.completedAt)
        else s.world.store.getRound k)
      (versions : ∀ j, t.store.getGlobalModel j = (s.world.store.getGlobalModel j).map
        (if g.versionId = j then Store.promotedRow username env.promotedAt else Store.archivedRow))
  | rolledBack (user : Option FLUser) (versionId : ℤ) (env : RollbackEnv) (g : GlobalModelRow)
      (username : String) (event : e = .rollback user versionId env)
      (found : s.world.store.getGlobalModel versionId = some g) (closed : g.status ≠ .staged)
      (rounds : ∀ k, t.store.getRound k = s.world.store.getRound k)
      (versions : ∀ j, t.store.getGlobalModel j = (s.world.store.getGlobalModel j).map
        (if versionId = j then Store.promotedRow username env.promotedAt else Store.archivedRow))

/-- What an event does to the rounds and the versions. -/
theorem Effect.lifecycle {e : Event} {t : World} (h : Effect app s e t) :
    LifecycleMove app s e t := by
  by_cases hw : .rounds ∈ e.writes ∨ .globalModels ∈ e.writes
  · cases h with
    | idle store crl => exact .kept (fun k => by rw [store]) fun j => by rw [store]
    | @start user body env t done crl =>
      obtain ⟨username, h⟩ := done.store
      obtain ⟨rounds, hopen, -, hget⟩ := Store.openRound_eq s.world.store env.startedAt
        username (body.params app.observationHours)
        (invitedOrgs s.world.store body.targetOrgIds).length
        (announcementOf app body env
          ((invitedOrgs s.world.store body.targetOrgIds).map (·.orgId))
          (s.world.store.rounds.seq + 1))
      rw [hopen] at h
      refine .opened user body env username rfl (fun k => ?_) fun j => by rw [h]; rfl
      have hnew : t.store.getRound k = rounds.get? k := by rw [h]; rfl
      rw [hnew, hget]
      by_cases hk : k = s.world.store.rounds.seq + 1
      · rw [if_pos hk, if_pos hk, hk]
      · rw [if_neg hk, if_neg hk]
        rfl
    | score trust crl =>
      refine .kept (fun k => ?_) fun j => ?_
      · rw [Store.getRound, trust.rounds]
        rfl
      · rw [Store.getGlobalModel, trust.globalModels]
        rfl
    | @aggregate user roundId env t resp done =>
      obtain ⟨done⟩ := done
      obtain ⟨rounds, versions, hstage, hrounds, hversions⟩ := stagedStore_frame app done.row
        roundId (s.world.store.getAcceptedModels roundId).length done.gate done.bytes done.info
        env done.scoredWorld.store
      have hscored : ∀ k, done.scoredWorld.store.getRound k = s.world.store.getRound k := by
        intro k
        rw [Store.getRound, done.scored.frame.1.rounds]
        rfl
      refine .staged user roundId env resp rfl done (fun k => ?_) fun j => ?_
      · have hnew : t.store.getRound k = rounds.get? k := by rw [done.store, hstage]; rfl
        rw [hnew, hrounds, hscored]
        by_cases hk : roundId = k
        · subst hk
          rw [if_pos rfl, if_pos rfl, done.found]
          rfl
        · rw [if_neg hk, if_neg hk]
      · have hnew : t.store.getGlobalModel j = versions.get? j := by rw [done.store, hstage]; rfl
        rw [hnew, hversions, Store.getGlobalModel, done.scored.frame.1.globalModels]
        rfl
    | @publish user roundId env t done crl =>
      obtain ⟨g, username, hstaged, hsoaked, h⟩ := done.staged
      obtain ⟨versions, hprom⟩ := Store.promoteGlobalModel_frame s.world.store
        env.promotedAt g.versionId username
      have hget := Store.getGlobalModel_promoteGlobalModel s.world.store env.promotedAt
        (by rw [(Store.getStagedModelForRound_some hstaged).1]; rfl) username
      rw [hprom] at h hget
      refine .published user roundId env g username rfl hstaged hsoaked (fun k => ?_) fun j => ?_
      · rw [h]
        exact AutoTable.get?_update (t := s.world.store.rounds) roundId k
          (completedRow env.completedAt) fun _ => rfl
      · rw [← hget, h]
        rfl
    | @rollback user versionId env t done crl =>
      obtain ⟨g, username, hfound, hclosed, h⟩ := done.target
      obtain ⟨versions, hprom⟩ := Store.promoteGlobalModel_frame s.world.store
        env.promotedAt versionId username
      have hget := Store.getGlobalModel_promoteGlobalModel s.world.store env.promotedAt
        (by rw [hfound]; rfl) username
      rw [hprom] at h hget
      refine .rolledBack user versionId env g username rfl hfound hclosed (fun k => ?_) fun j => ?_
      · rw [h]
        rfl
      · rw [← hget, h]
    | _ => simp [Event.writes] at hw
  · rw [not_or] at hw
    refine .kept (fun k => ?_) fun j => ?_
    · rw [Store.getRound, h.frame.rounds hw.1]
      rfl
    · rw [Store.getGlobalModel, h.frame.globalModels hw.2]
      rfl

/-- How an event changed the row of the round `k`. -/
inductive RoundMove (app : App) (s : Sys) (e : Event) (t : World) (k : ℤ) : Prop
  | kept (same : t.store.getRound k = s.world.store.getRound k)
  | opened (user : Option FLUser) (body : StartRoundRequest) (env : StartRoundEnv)
      (username : String) (event : e = .startRound user body env)
      (fresh : s.world.store.getRound k = none)
      (new : t.store.getRound k = some (Store.openedRow username (body.params app.observationHours)
        (invitedOrgs s.world.store body.targetOrgIds).length env.startedAt
        (announcementOf app body env
          ((invitedOrgs s.world.store body.targetOrgIds).map (·.orgId)) k) k))
  | aggregated (user : Option FLUser) (env : AggregateEnv) (resp : AggregateResponse)
      (event : e = .aggregate user k env) (done : Aggregated app user k env s.world resp t)
      (new : t.store.getRound k = some (aggregatedRow app
        (s.world.store.getAcceptedModels k).length done.gate done.bytes done.info done.row))
  | completed (user : Option FLUser) (env : PublishEnv) (event : e = .publish user k env)
      (g : GlobalModelRow) (staged : s.world.store.getStagedModelForRound k = some g)
      (new : t.store.getRound k =
        (s.world.store.getRound k).map (completedRow env.completedAt))

/-- What an event does to a row of `rounds`. -/
theorem Effect.roundMove {e : Event} {t : World} (h : Effect app s e t) (k : ℤ) :
    RoundMove app s e t k := by
  cases h.lifecycle with
  | kept rounds versions => exact .kept (rounds k)
  | opened user body env username event rounds versions =>
    have hnew := rounds k
    by_cases hk : k = s.world.store.rounds.seq + 1
    · rw [if_pos hk] at hnew
      refine .opened user body env username event ?_ hnew
      rw [hk]
      exact AutoTable.get?_seq_succ
    · rw [if_neg hk] at hnew
      exact .kept hnew
  | staged user roundId env resp event done rounds versions =>
    have hnew := rounds k
    by_cases hk : roundId = k
    · subst hk
      rw [if_pos rfl] at hnew
      exact .aggregated user env resp event done hnew
    · rw [if_neg hk] at hnew
      exact .kept hnew
  | published user roundId env g username event staged soaked rounds versions =>
    have hnew := rounds k
    by_cases hk : roundId = k
    · subst hk
      rw [if_pos rfl] at hnew
      exact .completed user env event g staged hnew
    · rw [if_neg hk] at hnew
      exact .kept hnew
  | rolledBack user versionId env g username event found closed rounds versions =>
    exact .kept (rounds k)

/-- What the start of a round fixes for good: its parameters and its announcement. -/
def RoundRow.opening (r : RoundRow) : RoundParams × Option Bytes := (r.params, r.announceAttestation)

lemma Effect.opening {e : Event} {t : World} (h : Effect app s e t) {k : ℤ} {r : RoundRow}
    (hr : s.world.store.getRound k = some r) :
    ∃ r', t.store.getRound k = some r' ∧ r'.opening = r.opening := by
  cases h.roundMove k with
  | kept same => exact ⟨r, same.trans hr, rfl⟩
  | opened user body env username event fresh new =>
    rw [fresh] at hr
    cases hr
  | aggregated user env resp event done new =>
    have hrow := done.found
    rw [hr] at hrow
    obtain rfl := Option.some.inj hrow
    exact ⟨_, new, rfl⟩
  | completed user env event g staged new =>
    rw [hr] at new
    exact ⟨_, new, rfl⟩

/-- The event promotes the version `g` at the time `now`: it publishes the staged model of a round,
or rolls back to a version that is not staged. -/
inductive Promotes (s : Sys) (g : GlobalModelRow) (now : ℚ) : Event → Prop
  | publish (user : Option FLUser) (env : PublishEnv) (soaked : g.stagedUntil ≤ env.now)
      (time : now = env.promotedAt) (staged : g.status = .staged) :
      Promotes s g now (.publish user g.roundId env)
  | rollback (user : Option FLUser) (env : RollbackEnv) (time : now = env.promotedAt)
      (closed : g.status ≠ .staged) : Promotes s g now (.rollback user g.versionId env)

/-- Where a version comes from that an event leaves. -/
inductive VersionMove (app : App) (s : Sys) (e : Event) (t : World) (g' : GlobalModelRow) : Prop
  | kept (old : g' ∈ s.world.store.globalModels.rows)
  | staged (user : Option FLUser) (env : AggregateEnv) (resp : AggregateResponse)
      (event : e = .aggregate user g'.roundId env)
      (done : Aggregated app user g'.roundId env s.world resp t)
      (fresh : g'.versionId = s.world.store.globalModels.seq + 1)
      (row : g' = stagedVersion app done.row g'.roundId done.gate done.bytes done.info env
        g'.versionId)
  | promoted (g : GlobalModelRow) (username : String) (now : ℚ)
      (old : g ∈ s.world.store.globalModels.rows) (event : Promotes s g now e)
      (row : g' = Store.promotedRow username now g)
  | archived (g : GlobalModelRow) (old : g ∈ s.world.store.globalModels.rows)
      (active : g.status = .active) (row : g' = { g with status := .archived })

lemma versionMove_of_promoted {e : Event} {t : World} {g g' : GlobalModelRow} {username : String}
    {now : ℚ} (hg : g ∈ s.world.store.globalModels.rows) (he : Promotes s g now e)
    (h : some g' = (s.world.store.getGlobalModel g'.versionId).map
      (if g.versionId = g'.versionId then Store.promotedRow username now else Store.archivedRow)) :
    VersionMove app s e t g' := by
  obtain ⟨q, hq, hrow⟩ := Option.map_eq_some_iff.mp h.symm
  by_cases hv : g.versionId = g'.versionId
  · rw [if_pos hv] at hrow
    rw [← hv, Store.mem_globalModels.mp hg] at hq
    obtain rfl := Option.some.inj hq
    exact .promoted g username now hg he hrow.symm
  · rw [if_neg hv] at hrow
    by_cases hactive : q.status = .active
    · refine .archived q (Table.get?_mem hq) hactive ?_
      rw [← hrow, Store.archivedRow, if_pos hactive]
    · rw [Store.archivedRow, if_neg hactive] at hrow
      rw [hrow] at hq
      exact .kept (Table.get?_mem hq)

/-- Where the versions come from that an event leaves. -/
theorem Effect.versionMove {e : Event} {t : World} (h : Effect app s e t) {g' : GlobalModelRow}
    (hg : g' ∈ t.store.globalModels.rows) : VersionMove app s e t g' := by
  rw [Store.mem_globalModels] at hg
  cases h.lifecycle with
  | kept rounds versions =>
    rw [versions] at hg
    exact .kept (Table.get?_mem hg)
  | opened user body env username event rounds versions =>
    rw [versions] at hg
    exact .kept (Table.get?_mem hg)
  | staged user roundId env resp event done rounds versions =>
    rw [versions] at hg
    split_ifs at hg with hv
    · have hrow := Option.some.inj hg
      have hround : roundId = g'.roundId := congrArg (·.roundId) hrow
      subst hround
      exact .staged user env resp event done hv hrow.symm
    · exact .kept (Table.get?_mem hg)
  | published user roundId env g username event staged soaked rounds versions =>
    obtain ⟨hfound, rfl, hst⟩ := Store.getStagedModelForRound_some staged
    subst event
    exact versionMove_of_promoted (Table.get?_mem hfound) (.publish user env soaked rfl hst)
      (hg.symm.trans (versions _))
  | rolledBack user versionId env g username event found closed rounds versions =>
    obtain rfl := Store.getGlobalModel_versionId found
    subst event
    exact versionMove_of_promoted (Table.get?_mem found) (.rollback user env rfl closed)
      (hg.symm.trans (versions _))

/-- A version without the columns that a promotion writes. -/
def GlobalModelRow.core (g : GlobalModelRow) : GlobalModelRow :=
  { g with status := .staged, promotedAt := none, promotedBy := none }

lemma archivedRow_core (g : GlobalModelRow) : (Store.archivedRow g).core = g.core := by
  unfold Store.archivedRow
  split <;> rfl

lemma archivedRow_status (g : GlobalModelRow) :
    (Store.archivedRow g).status ≠ .active ∧
      ((Store.archivedRow g).status = .staged ↔ g.status = .staged) := by
  unfold Store.archivedRow
  split
  · rename_i h
    simp [h]
  · rename_i h
    exact ⟨h, Iff.rfl⟩

/-- Versions are never deleted, and never staged again. -/
theorem Effect.version_kept {e : Event} {t : World} (h : Effect app s e t) {g : GlobalModelRow}
    (hg : g ∈ s.world.store.globalModels.rows) :
    ∃ g' ∈ t.store.globalModels.rows, g'.core = g.core ∧
      (g.status ≠ .staged → g'.status ≠ .staged) := by
  have hget := Store.mem_globalModels.mp hg
  -- the row of `g` after the promotion of some version
  have hpromoted : ∀ v username now, (∀ j, t.store.getGlobalModel j =
      (s.world.store.getGlobalModel j).map
        (if v = j then Store.promotedRow username now else Store.archivedRow)) →
      ∃ g' ∈ t.store.globalModels.rows, g'.core = g.core ∧
        (g.status ≠ .staged → g'.status ≠ .staged) := by
    intro v username now versions
    have hnew := versions g.versionId
    rw [hget] at hnew
    refine ⟨_, Table.get?_mem hnew, ?_⟩
    split_ifs
    · exact ⟨rfl, fun _ hst => by cases hst⟩
    · exact ⟨archivedRow_core g, fun hst hst' => hst ((archivedRow_status g).2.mp hst')⟩
  cases h.lifecycle with
  | kept rounds versions => exact ⟨g, Table.get?_mem ((versions _).trans hget), rfl, id⟩
  | opened user body env username event rounds versions =>
    exact ⟨g, Table.get?_mem ((versions _).trans hget), rfl, id⟩
  | staged user roundId env resp event done rounds versions =>
    have hnew := versions g.versionId
    rw [if_neg (by have := s.world.store.globalModels.bounded g hg; omega), hget] at hnew
    exact ⟨g, Table.get?_mem hnew, rfl, id⟩
  | published user roundId env v username event staged soaked rounds versions =>
    exact hpromoted v.versionId username env.promotedAt versions
  | rolledBack user versionId env v username event found closed rounds versions =>
    exact hpromoted versionId username env.promotedAt versions

/-- The round of every version had a version before, or is the one just aggregated. -/
theorem Effect.version {e : Event} {t : World} (h : Effect app s e t) {g : GlobalModelRow}
    (hg : g ∈ t.store.globalModels.rows) :
    (∃ g' ∈ s.world.store.globalModels.rows, g'.roundId = g.roundId) ∨
      ∃ user env resp, e = .aggregate user g.roundId env ∧
        Nonempty (Aggregated app user g.roundId env s.world resp t) := by
  cases h.versionMove hg with
  | kept old => exact Or.inl ⟨g, old, rfl⟩
  | staged user env resp event done fresh row => exact Or.inr ⟨user, env, resp, event, ⟨done⟩⟩
  | promoted g' username now old event row => exact Or.inl ⟨g', old, by rw [row]; rfl⟩
  | archived g' old active row => exact Or.inl ⟨g', old, by rw [row]⟩

/-! ### Files -/

/-- How an event changed the files: an upload, a merged model or the CRL was stored. -/
inductive FileMove (app : App) (s : Sys) (e : Event) (t : World) : Prop
  | kept (same : t.files = s.world.files)
  | upload (p : Pending) (new : t.files = Function.update s.world.files
      (contributionPath app.modelDir p.roundId p.orgId (app.host.sha256hex p.upload))
      (some p.upload))
  | model (user : Option FLUser) (roundId : ℤ) (env : AggregateEnv) (resp : AggregateResponse)
      (event : e = .aggregate user roundId env)
      (done : Aggregated app user roundId env s.world resp t)
  | crl (content : Bytes)
      (new : t.files = Function.update s.world.files (crlPath app) (some content))

/-- How an event changed the files where it stored no upload. -/
inductive StoreMove (app : App) (s : Sys) (e : Event) (t : World) : Prop
  | kept (same : t.files = s.world.files)
  | model (user : Option FLUser) (roundId : ℤ) (env : AggregateEnv) (resp : AggregateResponse)
      (event : e = .aggregate user roundId env)
      (done : Aggregated app user roundId env s.world resp t)
  | crl (content : Bytes)
      (new : t.files = Function.update s.world.files (crlPath app) (some content))

lemma storeMove_of_rebuilt {e : Event} {env : CrlEnv} {s' : Store} {t : World}
    (h : CrlRebuilt app env s' (s.world.setStore s') t) : StoreMove app s e t := by
  rcases h.files with hfiles | ⟨content, hfiles⟩
  · exact .kept hfiles
  · exact .crl content hfiles

/-- An event that goes on with no upload stores none. -/
theorem next_storeMove (app : App) (s : Sys) {e : Event} (he : ∀ i env, e ≠ .resume i env) :
    StoreMove app s e (next app e s).world := by
  cases e with
  | resume i env => exact absurd rfl (he i env)
  | enroll user body env =>
    rcases enrollOrg_spec app s.world user body env with ⟨-, h⟩ | ⟨-, -, -, h⟩
    · exact .kept (congrArg World.files h)
    · exact .kept h
  | mintToken user body env =>
    rcases mintEnrollToken_spec app s.world user body env with ⟨-, h⟩ | ⟨-, -, -, h⟩
    · exact .kept (congrArg World.files h)
    · exact .kept h
  | redeemToken body env => exact .kept (enrollWithToken_spec app s.world body env).2.1
  | block user orgId t =>
    rcases blockOrg_spec app s.world user orgId t with ⟨-, h, -⟩ | ⟨-, -, -, h⟩
    · exact .kept (congrArg World.files h)
    · exact .kept h
  | unblock user orgId t =>
    rcases unblockOrg_spec app s.world user orgId t with ⟨-, h, -⟩ | ⟨-, -, -, h⟩
    · exact .kept (congrArg World.files h)
    · exact .kept h
  | revoke user orgId crl t =>
    rcases revokeOrg_spec app s.world crl user orgId t with ⟨-, h, -⟩ | ⟨-, -, h⟩
    · exact .kept (congrArg World.files h)
    · exact storeMove_of_rebuilt h
  | leaveRequest req orgId body env =>
    exact .kept (orgLeaveRequest_spec app s.world req orgId body env).2.1
  | approveRemoval user orgId env =>
    rcases approveRemoval_spec app s.world user orgId env with ⟨-, h⟩ | ⟨-, h⟩
    · exact .kept (congrArg World.files h)
    · exact storeMove_of_rebuilt h.crl
  | startRound user body env => exact .kept (startRound_spec app s.world user body env).2.1
  | challenge req roundId env =>
    exact .kept (issueRoundChallenge_spec app s.world req roundId env).2.1
  | contribute c => exact .kept (congrArg World.files (next_contribute_world app s c))
  | aggregate user roundId env =>
    rcases aggregateRound_spec app s.world user roundId env with
      ⟨-, -, -, hfiles, -⟩ | ⟨resp, -, ⟨done⟩⟩
    · exact .kept hfiles
    · exact .model user roundId env resp rfl done
  | publish user roundId env =>
    exact .kept (publishRoundModel_spec app s.world user roundId env).2.1
  | rollback user versionId env =>
    exact .kept (rollbackGlobalModel_spec app s.world user versionId env).2.1

lemma resume_files (app : App) (s : Sys) (i : ℕ) (env : ContributeEnv) :
    (next app (.resume i env) s).world.files = s.world.files ∨ ∃ p, s.inFlight[i]? = some p ∧
      (next app (.resume i env) s).world.files = Function.update s.world.files
        (contributionPath app.modelDir p.roundId p.orgId (app.host.sha256hex p.upload))
        (some p.upload) := by
  simp only [next]
  cases hp : s.inFlight[i]? with
  | none => exact Or.inl rfl
  | some p =>
    have hspec : FinishOutcome app p env s.world (contributeFinish app p env s.world).1
        (contributeFinish app p env s.world).2 := contributeFinish_spec
    dsimp only
    generalize (contributeFinish app p env s.world).1 = r at hspec
    generalize (contributeFinish app p env s.world).2 = t at hspec
    cases hspec with
    | refused e no => exact Or.inl rfl
    | burned e t no burnt consumes store files crl =>
      exact files.imp_right fun hfiles => ⟨p, rfl, hfiles⟩
    | rejected e t no burnt n consumes store files crl => exact Or.inl files
    | accepted resp t chal n evidence store files crl => exact Or.inr ⟨p, rfl, files⟩

/-- What an event does to the files. -/
theorem next_fileMove (app : App) (s : Sys) (e : Event) :
    FileMove app s e (next app e s).world := by
  by_cases he : ∀ i env, e ≠ .resume i env
  · cases next_storeMove app s he with
    | kept same => exact .kept same
    | model user roundId env resp event done => exact .model user roundId env resp event done
    | crl content new => exact .crl content new
  · push Not at he
    obtain ⟨i, env, rfl⟩ := he
    rcases resume_files app s i env with hfiles | ⟨p, -, hfiles⟩
    · exact .kept hfiles
    · exact .upload p hfiles

/-! ### The revocation list -/

/-- The clock and the file of an event that rebuilds the CRL. -/
def Event.crlEnv : Event → Option CrlEnv
  | .revoke _ _ crl _ => some crl
  | .approveRemoval _ _ env => some env.crl
  | _ => none

lemma Effect.crl {e : Event} {t : World} (h : Effect app s e t) (he : e.crlEnv = none) :
    t.crl = s.world.crl := by
  cases h with
  | revoke done rebuilt => cases he
  | remove done => cases he
  | finish p r pending outcome =>
    cases outcome with
    | refused e no => rfl
    | burned e t no burnt consumes store files crl => exact crl
    | rejected e t no burnt n consumes store files crl => exact crl
    | accepted resp t chal n evidence store files crl => exact crl
  | aggregate resp done =>
    obtain ⟨done⟩ := done
    exact done.crl
  | _ => assumption

lemma crl_next_of_none {e : Event} (h : revokes app e s.world = none) :
    (next app e s).world.crl = s.world.crl := by
  cases e with
  | revoke user x crl t =>
    rcases revokeOrg_spec app s.world crl user x t with ⟨-, hw, -⟩ | ⟨hok, -⟩
    · exact congrArg World.crl hw
    · simp [revokes, hok, Except.isOk, Except.toBool] at h
  | approveRemoval user x env =>
    rcases approveRemoval_spec app s.world user x env
      with ⟨-, hw⟩ | ⟨⟨c, hok⟩, -⟩
    · exact congrArg World.crl hw
    · simp [revokes, hok, Except.isOk, Except.toBool] at h
  | _ => exact (next_effect _ _ _).crl rfl

/-- A revoked org: its row is marked, the other rows stay, and the CRL lists the marked rows. -/
structure Revocation (app : App) (s : Sys) (e : Event) (x : String) : Prop where
  others : ∀ y, x ≠ y → (next app e s).world.store.getOrg y = s.world.store.getOrg y
  row : ∃ row row', s.world.store.getOrg x = some row ∧
    (next app e s).world.store.getOrg x = some row' ∧ row'.status = .revoked ∧
    row'.certSerial = row.certSerial
  list : app.ca.isSome → (∀ env ∈ e.crlEnv, env.writable = true) →
    ∃ crl, (next app e s).world.crl = some crl ∧
      crl.revoked = (next app e s).world.store.listRevokedSerials

theorem revocation_of_revokes {e : Event} {x : String} (h : revokes app e s.world = some x) :
    Revocation app s e x := by
  rcases revokes_effect h with ⟨user, crl, t, rfl, done, rebuilt⟩ | ⟨user, env, rfl, done⟩
  · have hget : ∀ y, (next app (.revoke user x crl t) s).world.store.getOrg y =
        (s.world.store.setOrgStatus x .revoked).getOrg y := fun y => by rw [done.store]
    obtain ⟨row, hrow⟩ := Option.isSome_iff_exists.mp done.known
    refine ⟨fun y hy => ?_, ⟨row, { row with status := .revoked }, hrow, ?_, rfl, rfl⟩,
      fun hca hw => rebuilt.rebuilt hca (hw crl rfl)⟩
    · rw [hget, Store.getOrg_setOrgStatus, if_neg hy]
    · rw [hget, Store.getOrg_setOrgStatus, if_pos rfl, hrow]
      rfl
  · obtain ⟨coordPriv, -, hstore⟩ := done.store
    have hget : ∀ y, (next app (.approveRemoval user x env) s).world.store.getOrg y =
        (removedStore app coordPriv x env s.world.store).getOrg y := fun y => by rw [hstore]
    obtain ⟨row, hrow, -⟩ := done.pending
    have hnew := hget x
    rw [getOrg_removedStore, if_pos rfl, hrow] at hnew
    refine ⟨fun y hy => ?_, ⟨row, _, hrow, hnew, rfl, rfl⟩,
      fun hca hw => done.crl.rebuilt hca (hw env.crl rfl)⟩
    rw [hget, getOrg_removedStore, if_neg hy]

end Changes

end FlCoordinator
