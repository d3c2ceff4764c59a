import FlCoordinator.AggregateSpec
import FlCoordinator.Lib.Runs
import FlCoordinator.OrgsSpec

/-!
# The coordinator as an event machine

A state is the world and the uploads that are being read. An event is one request, or the
continuation of a suspended one, with everything it draws from clocks, random generators and
XGBoost. `next` runs the handler; `next_effect` says once what any event can do.
-/

namespace FlCoordinator

open Lib Handler

structure Sys where
  world : World
  inFlight : List Pending

/-- A request, or the continuation of the `i`-th suspended contribution. -/
inductive Event
  | enroll (user : Option FLUser) (body : EnrollOrgRequest) (env : EnrollEnv)
  | mintToken (user : Option FLUser) (body : EnrollTokenRequest) (env : MintEnv)
  | redeemToken (body : EnrollWithTokenRequest) (env : RedeemEnv)
  | block (user : Option FLUser) (orgId : String) (loggedAt : Decimal)
  | unblock (user : Option FLUser) (orgId : String) (loggedAt : Decimal)
  | revoke (user : Option FLUser) (orgId : String) (crl : CrlEnv) (loggedAt : Decimal)
  | leaveRequest (req : Request) (orgId : String) (body : LeaveRequestBody) (env : LeaveEnv)
  | approveRemoval (user : Option FLUser) (orgId : String) (env : ApproveEnv)
  | startRound (user : Option FLUser) (body : StartRoundRequest) (env : StartRoundEnv)
  | challenge (req : Request) (roundId : ℤ) (env : ChallengeEnv)
  | contribute (c : ContributeRequest)
  | resume (i : ℕ) (env : ContributeEnv)
  | aggregate (user : Option FLUser) (roundId : ℤ) (env : AggregateEnv)
  | publish (user : Option FLUser) (roundId : ℤ) (env : PublishEnv)
  | rollback (user : Option FLUser) (versionId : ℤ) (env : RollbackEnv)

section Step

variable (app : App)

/-- Run a handler that does not suspend. -/
def Sys.run {α : Type} (s : Sys) (m : Api α) : Sys := { s with world := (m s.world).2 }

/-- One event. A contribution that passes its first checks is suspended until it is resumed. -/
def next (e : Event) (s : Sys) : Sys :=
  match e with
  | .enroll user body env => s.run (enrollOrg app user body env)
  | .mintToken user body env => s.run (mintEnrollToken app user body env)
  | .redeemToken body env => s.run (enrollWithToken app body env)
  | .block user orgId t => s.run (blockOrg app user orgId t)
  | .unblock user orgId t => s.run (unblockOrg app user orgId t)
  | .revoke user orgId crl t => s.run (revokeOrg app crl user orgId t)
  | .leaveRequest req orgId body env => s.run (orgLeaveRequest app req orgId body env)
  | .approveRemoval user orgId env => s.run (approveRemoval app user orgId env)
  | .startRound user body env => s.run (startRound app user body env)
  | .challenge req roundId env => s.run (issueRoundChallenge app req roundId env)
  | .contribute c =>
    match contributeStart app c s.world with
    | (.ok p, t) => { world := t, inFlight := s.inFlight ++ [p] }
    | (.error _, t) => { s with world := t }
  | .resume i env =>
    match s.inFlight[i]? with
    | none => s
    | some p =>
      { world := (contributeFinish app p env s.world).2, inFlight := s.inFlight.eraseIdx i }
  | .aggregate user roundId env => s.run (aggregateRound app user roundId env)
  | .publish user roundId env => s.run (publishRoundModel app user roundId env)
  | .rollback user versionId env => s.run (rollbackGlobalModel app user versionId env)

/-- A fresh installation: empty databases and the empty CRL of `init_ca`. -/
def init : Sys where
  world :=
    { store := Store.empty
      audit := AuditTrail.empty
      crl := app.caCert.map (fun caCert => buildCrl caCert [] 0)
      files := fun _ => none }
  inFlight := []

/-- The state after a run from a fresh installation. -/
def after (es : List Event) : Sys := Lib.run (next app) (init app) es

/-- The steps of such a run: each event with the state it finds. -/
def steps (es : List Event) : List (Sys × Event) := visits (next app) (init app) es

lemma after_append (es fs : List Event) :
    after app (es ++ fs) = Lib.run (next app) (after app es) fs := run_append _ _ _ _

lemma after_concat (es : List Event) (e : Event) :
    after app (es ++ [e]) = next app e (after app es) := after_append app es [e]

/-- The org that a successful `DELETE` or `approve-removal` removes. -/
def revokes (e : Event) (w : World) : Option String :=
  match e with
  | .revoke user orgId crl t =>
    if (revokeOrg app crl user orgId t w).1.isOk then some orgId else none
  | .approveRemoval user orgId env =>
    if (approveRemoval app user orgId env w).1.isOk then some orgId else none
  | _ => none

end Step

/-! ### What an event can do -/

/-- The changes an event can make to the world. -/
inductive Effect (app : App) (s : Sys) : Event → World → Prop
  | idle {e : Event} {t : World} (store : t.store = s.world.store)
      (crl : t.crl = s.world.crl) : Effect app s e t
  | enroll {user : Option FLUser} {body : EnrollOrgRequest} {env : EnrollEnv} {t : World}
      (done : Enrolled app body.orgId body.publicKeyPem env s.world.store t.store)
      (crl : t.crl = s.world.crl) : Effect app s (.enroll user body env) t
  | mint {user : Option FLUser} {body : EnrollTokenRequest} {env : MintEnv} {t : World}
      (done : Minted body env s.world.store t.store)
      (crl : t.crl = s.world.crl) : Effect app s (.mintToken user body env) t
  | burnToken {body : EnrollWithTokenRequest} {env : RedeemEnv} {t : World}
      (jti : Option String)
      (redeemed : Redeemed body.orgId env.consumedAt jti s.world.store t.store)
      (crl : t.crl = s.world.crl) : Effect app s (.redeemToken body env) t
  | redeem {body : EnrollWithTokenRequest} {env : RedeemEnv} {t : World}
      (jti : Option String) (mid : Store)
      (redeemed : Redeemed body.orgId env.consumedAt jti s.world.store mid)
      (done : Enrolled app body.orgId body.ed25519PubPem env.enroll mid t.store)
      (crl : t.crl = s.world.crl) : Effect app s (.redeemToken body env) t
  | block {user : Option FLUser} {orgId : String} {at' : Decimal} {t : World}
      (done : StatusSet "fl_block_org" .blocked user orgId s.world t)
      (crl : t.crl = s.world.crl) : Effect app s (.block user orgId at') t
  | unblock {user : Option FLUser} {orgId : String} {at' : Decimal} {t : World}
      (done : StatusSet "fl_unblock_org" .active user orgId s.world t)
      (crl : t.crl = s.world.crl) : Effect app s (.unblock user orgId at') t
  | revoke {user : Option FLUser} {orgId : String} {crl : CrlEnv} {at' : Decimal} {t : World}
      (done : StatusSet "fl_revoke_org" .revoked user orgId s.world t)
      (rebuilt : CrlRebuilt app crl t.store (s.world.setStore t.store) t) :
      Effect app s (.revoke user orgId crl at') t
  | leave {req : Request} {orgId : String} {body : LeaveRequestBody} {env : LeaveEnv} {t : World}
      (caller : getAuthenticatedOrgId app req s.world env.authAt = .ok orgId)
      (done : LeaveRequested app orgId body env.requestedAt s.world t)
      (crl : t.crl = s.world.crl) : Effect app s (.leaveRequest req orgId body env) t
  | remove {user : Option FLUser} {orgId : String} {env : ApproveEnv} {t : World}
      (done : Removed app user orgId env s.world t) :
      Effect app s (.approveRemoval user orgId env) t
  | start {user : Option FLUser} {body : StartRoundRequest} {env : StartRoundEnv} {t : World}
      (done : Started app body env s.world.store t.store)
      (crl : t.crl = s.world.crl) : Effect app s (.startRound user body env) t
  | challenge {req : Request} {roundId : ℤ} {env : ChallengeEnv} {t : World}
      (done : Issued app req roundId env s.world t.store)
      (crl : t.crl = s.world.crl) : Effect app s (.challenge req roundId env) t
  | finish {i : ℕ} {env : ContributeEnv} {t : World} (p : Pending)
      (r : Except Failure ContributionResponse) (pending : s.inFlight[i]? = some p)
      (outcome : FinishOutcome app p env s.world r t) : Effect app s (.resume i env) t
  | score {user : Option FLUser} {roundId : ℤ} {env : AggregateEnv} {t : World}
      (trust : TrustOnly s.world.store t.store)
      (crl : t.crl = s.world.crl) : Effect app s (.aggregate user roundId env) t
  | aggregate {user : Option FLUser} {roundId : ℤ} {env : AggregateEnv} {t : World}
      (resp : AggregateResponse) (done : Nonempty (Aggregated app user roundId env s.world resp t)) :
      Effect app s (.aggregate user roundId env) t
  | publish {user : Option FLUser} {roundId : ℤ} {env : PublishEnv} {t : World}
      (done : Published roundId env s.world.store t.store)
      (crl : t.crl = s.world.crl) : Effect app s (.publish user roundId env) t
  | rollback {user : Option FLUser} {versionId : ℤ} {env : RollbackEnv} {t : World}
      (done : RolledBack versionId env s.world.store t.store)
      (crl : t.crl = s.world.crl) : Effect app s (.rollback user versionId env) t

section Effects

variable {app : App} {s : Sys}

/-- The CRL facts of a status change, stated from the final store. -/
lemma crlRebuilt_of_statusSet {crl : CrlEnv} {user : Option FLUser} {orgId : String} {t : World}
    (hset : StatusSet "fl_revoke_org" .revoked user orgId s.world t)
    (h : CrlRebuilt app crl (s.world.store.setOrgStatus orgId .revoked)
      (s.world.setStore (s.world.store.setOrgStatus orgId .revoked)) t) :
    CrlRebuilt app crl t.store (s.world.setStore t.store) t := by
  rw [hset.store]
  exact h

lemma next_contribute_world (app : App) (s : Sys) (c : ContributeRequest) :
    (next app (.contribute c) s).world = s.world := by
  have hspec := (contributeStart_spec app s.world c).1
  simp only [next]
  split
  · rename_i p t heq
    rw [heq] at hspec
    exact hspec
  · rename_i d t heq
    rw [heq] at hspec
    exact hspec

/-- Every event has one of the effects. -/
theorem next_effect (app : App) (s : Sys) (e : Event) : Effect app s e (next app e s).world := by
  cases e with
  | enroll user body env =>
    rcases enrollOrg_spec app s.world user body env
      with ⟨-, h⟩ | ⟨-, h, hcrl, -⟩
    · exact .idle (congrArg World.store h) (congrArg World.crl h)
    · exact .enroll h hcrl
  | mintToken user body env =>
    rcases mintEnrollToken_spec app s.world user body env with ⟨-, h⟩ | ⟨-, h, hcrl, -⟩
    · exact .idle (congrArg World.store h) (congrArg World.crl h)
    · exact .mint h hcrl
  | redeemToken body env =>
    obtain ⟨hcrl, -, h⟩ := enrollWithToken_spec app s.world body env
    rcases h with ⟨-, h⟩ | ⟨tok, jti, mid, -, hred, ⟨-, h⟩ | h⟩
    · exact .idle (congrArg World.store h) hcrl
    · subst h
      exact .burnToken jti hred hcrl
    · exact .redeem jti mid hred h.enrolled hcrl
  | block user orgId t =>
    rcases blockOrg_spec app s.world user orgId t with ⟨-, h, -⟩ | ⟨-, h, hcrl, -⟩
    · exact .idle (congrArg World.store h) (congrArg World.crl h)
    · exact .block h hcrl
  | unblock user orgId t =>
    rcases unblockOrg_spec app s.world user orgId t with ⟨-, h, -⟩ | ⟨-, h, hcrl, -⟩
    · exact .idle (congrArg World.store h) (congrArg World.crl h)
    · exact .unblock h hcrl
  | revoke user orgId crl t =>
    rcases revokeOrg_spec app s.world crl user orgId t with ⟨-, h, -⟩ | ⟨-, h, hcrl⟩
    · exact .idle (congrArg World.store h) (congrArg World.crl h)
    · exact .revoke h (crlRebuilt_of_statusSet h hcrl)
  | leaveRequest req orgId body env =>
    obtain ⟨hcrl, -, ⟨-, h⟩ | ⟨hauth, h⟩⟩ := orgLeaveRequest_spec app s.world req orgId body env
    · exact .idle (congrArg World.store h) hcrl
    · exact .leave hauth h hcrl
  | approveRemoval user orgId env =>
    rcases approveRemoval_spec app s.world user orgId env with ⟨-, h⟩ | ⟨-, h⟩
    · exact .idle (congrArg World.store h) (congrArg World.crl h)
    · exact .remove h
  | startRound user body env =>
    obtain ⟨hcrl, -, ⟨-, h⟩ | ⟨-, h⟩⟩ := startRound_spec app s.world user body env
    · exact .idle (congrArg World.store h) hcrl
    · exact .start h hcrl
  | challenge req roundId env =>
    obtain ⟨hcrl, -, ⟨-, h⟩ | ⟨-, h⟩⟩ := issueRoundChallenge_spec app s.world req roundId env
    · exact .idle (congrArg World.store h) hcrl
    · exact .challenge h hcrl
  | contribute c =>
    have h := next_contribute_world app s c
    exact .idle (congrArg World.store h) (congrArg World.crl h)
  | resume i env =>
    simp only [next]
    cases hp : s.inFlight[i]? with
    | none => exact .idle rfl rfl
    | some p => exact .finish p _ hp contributeFinish_spec
  | aggregate user roundId env =>
    rcases aggregateRound_spec app s.world user roundId env with ⟨-, -, htrust, -, hcrl⟩ | ⟨resp, -, h⟩
    · exact .score htrust hcrl
    · exact .aggregate resp h
  | publish user roundId env =>
    obtain ⟨hcrl, -, ⟨-, h⟩ | h⟩ := publishRoundModel_spec app s.world user roundId env
    · exact .idle (congrArg World.store h) hcrl
    · exact .publish h hcrl
  | rollback user versionId env =>
    obtain ⟨hcrl, -, ⟨-, h⟩ | h⟩ := rollbackGlobalModel_spec app s.world user versionId env
    · exact .idle (congrArg World.store h) hcrl
    · exact .rollback h hcrl

/-- A successful revocation sets the status and rebuilds the CRL from the new rows. -/
theorem revokes_effect {e : Event} {orgId : String} (h : revokes app e s.world = some orgId) :
    (∃ user crl at', e = .revoke user orgId crl at' ∧
      StatusSet "fl_revoke_org" .revoked user orgId s.world (next app e s).world ∧
      CrlRebuilt app crl (next app e s).world.store
        (s.world.setStore (next app e s).world.store) (next app e s).world) ∨
    ∃ user env, e = .approveRemoval user orgId env ∧
      Removed app user orgId env s.world (next app e s).world := by
  cases e with
  | revoke user x crl t =>
    simp only [revokes] at h
    split_ifs at h with hok
    cases h
    rcases revokeOrg_spec app s.world crl user orgId t with ⟨⟨d, hd⟩, -⟩ | ⟨-, h, hcrl⟩
    · rw [hd] at hok
      cases hok
    · exact Or.inl ⟨user, crl, t, rfl, h, crlRebuilt_of_statusSet h hcrl⟩
  | approveRemoval user x env =>
    simp only [revokes] at h
    split_ifs at h with hok
    cases h
    rcases approveRemoval_spec app s.world user orgId env with ⟨⟨d, hd⟩, -⟩ | ⟨-, h⟩
    · rw [hd] at hok
      cases hok
    · exact Or.inr ⟨user, env, rfl, h⟩
  | _ => cases h

end Effects

end FlCoordinator
