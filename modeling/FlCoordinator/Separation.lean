import FlCoordinator.Dashboard
import FlCoordinator.Participation

/-!
# The audit trail is written and never read

No handler looks at the trail, so worlds that differ in it alone go through the same changes. Runs
of requests with credentials then change the database, the CRL and the files as the event machine
does: logging in and out adds nothing to them.
-/

namespace FlCoordinator

open Lib Handler

/-! ### Handlers -/

/-- The worlds differ in the audit trail at most. -/
def SameData (w w' : World) : Prop := ∃ trail, w' = { w with audit := trail }

namespace SameData

variable {w w' w'' : World}

lemma refl (w : World) : SameData w w := ⟨w.audit, rfl⟩

lemma trans (h : SameData w w') (h' : SameData w' w'') : SameData w w'' := by
  obtain ⟨trail, rfl⟩ := h
  obtain ⟨trail', rfl⟩ := h'
  exact ⟨trail', rfl⟩

lemma store (h : SameData w w') : w'.store = w.store := by
  obtain ⟨trail, rfl⟩ := h
  rfl

lemma crl (h : SameData w w') : w'.crl = w.crl := by
  obtain ⟨trail, rfl⟩ := h
  rfl

lemma files (h : SameData w w') : w'.files = w.files := by
  obtain ⟨trail, rfl⟩ := h
  rfl

lemma log (w : World) (app : App) (t : Decimal) (a b c : String) (d : Json) :
    SameData w (w.logAudit app t a b c d) := ⟨_, rfl⟩

end SameData

/-- The handler answers the same in worlds with the same data, and leaves the same data. -/
abbrev Blind {α : Type} (m : Api α) : Prop := Respects SameData m

section Statements

variable {app : App} {α : Type}

lemma blind_pure (a : α) : Blind (pure a : Api α) := .pure a

lemma blind_raise (e : Failure) : Blind (raise e : Api α) := fun _ _ h => ⟨rfl, h⟩

lemma blind_ensure (p : Prop) [Decidable p] (e : Failure) : Blind (ensure p e : Api Unit) :=
  .ensure p e

lemma blind_attempt {δ : Type} (r : Except δ α) (f : δ → Failure) : Blind (attempt r f : Api α) :=
  .attempt r f

lemma blind_orRaise (o : Option α) (e : Failure) : Blind (orRaise o e : Api α) := by
  cases o with
  | none => exact blind_raise e
  | some a => exact blind_pure a

lemma blind_query (f : Store → α) : Blind (Api.query f) := by
  apply Respects.read
  rintro w w' ⟨trail, rfl⟩
  rfl

lemma blind_execute (f : Store → Store) : Blind (Api.execute f) := by
  apply Respects.write
  rintro w w' ⟨trail, rfl⟩
  exact ⟨trail, rfl⟩

lemma blind_insert (f : Store → α × Store) : Blind (Api.insert f) := by
  apply Respects.exec
  rintro w w' ⟨trail, rfl⟩
  exact ⟨rfl, trail, rfl⟩

lemma blind_tryExecute (f : Store → Except PyErr Store) (fail : PyErr → Failure) :
    Blind (Api.tryExecute f fail) := by
  rintro w w' ⟨trail, rfl⟩
  simp only [Api.tryExecute, tryExec]
  cases f w.store with
  | error e => exact ⟨rfl, trail, rfl⟩
  | ok s => exact ⟨rfl, trail, rfl⟩

lemma blind_log (t : Decimal) (a b c : String) (d : Json) : Blind (Api.log app t a b c d) := by
  apply Respects.write
  rintro w w' ⟨trail, rfl⟩
  exact ⟨trail.log app.host t a b c d, rfl⟩

lemma blind_writeFile (path : String) (content : Bytes) : Blind (Api.writeFile path content) := by
  apply Respects.write
  rintro w w' ⟨trail, rfl⟩
  exact ⟨trail, rfl⟩

lemma blind_flRequire (user : Option FLUser) (permission : String) :
    Blind (flRequire user permission) := by
  unfold flRequire
  split
  · exact blind_raise _
  · split
    · exact blind_pure _
    · exact blind_raise _

lemma blind_requireRound (roundId : ℤ) : Blind (requireRound roundId) := by
  unfold requireRound fetchRound
  apply Respects.bind
  · apply Respects.bind (blind_attempt _ _)
    intro id
    exact blind_query _
  · intro found
    exact blind_orRaise _ _

lemma blind_authenticate (req : Request) (now : ℚ) : Blind (authenticate app req now) := by
  unfold authenticate
  apply Respects.bind
  · apply Respects.read
    rintro w w' ⟨trail, rfl⟩
    rfl
  · intro auth
    exact blind_attempt _ _

end Statements

section Orgs

variable {app : App}

lemma blind_enrollOrg (user : Option FLUser) (body : EnrollOrgRequest) (env : EnrollEnv) :
    Blind (enrollOrg app user body env) := by
  unfold enrollOrg
  apply Respects.bind (blind_flRequire _ _)
  intro u
  apply Respects.bind (blind_attempt _ _)
  intro orgPub
  apply Respects.bind (blind_orRaise _ _)
  intro ca
  apply Respects.bind (blind_attempt _ _)
  intro cert
  apply Respects.bind (blind_tryExecute _ _)
  intro _
  apply Respects.bind (blind_log _ _ _ _ _)
  intro _
  apply Respects.bind (blind_orRaise _ _)
  intro coordPriv
  exact blind_pure _

lemma blind_mintEnrollToken (user : Option FLUser) (body : EnrollTokenRequest) (env : MintEnv) :
    Blind (mintEnrollToken app user body env) := by
  unfold mintEnrollToken
  apply Respects.bind (blind_flRequire _ _)
  intro u
  apply Respects.bind (blind_query _)
  intro existing
  apply Respects.bind (blind_ensure _ _)
  intro _
  apply Respects.bind (blind_orRaise _ _)
  intro keys
  apply Respects.bind (blind_tryExecute _ _)
  intro _
  apply Respects.bind (blind_log _ _ _ _ _)
  intro _
  exact blind_pure _

lemma blind_checkToken (body : EnrollWithTokenRequest) : Blind (checkToken app body) := by
  unfold checkToken
  apply Respects.bind (blind_orRaise _ _)
  intro keys
  apply Respects.bind (blind_orRaise _ _)
  intro parts
  apply Respects.bind (blind_ensure _ _)
  intro _
  apply Respects.bind (blind_attempt _ _)
  intro tok
  apply Respects.bind (blind_attempt _ _)
  intro type
  apply Respects.bind (blind_attempt _ _)
  intro tokOrgId
  apply Respects.bind (blind_ensure _ _)
  intro _
  apply Respects.bind (blind_attempt _ _)
  intro edPub
  apply Respects.bind (blind_attempt _ _)
  intro _
  apply Respects.bind (blind_attempt _ _)
  intro popAtt
  apply Respects.bind (blind_orRaise _ _)
  intro popSig
  apply Respects.bind (blind_ensure _ _)
  intro _
  apply Respects.bind (blind_attempt _ _)
  intro jti
  apply Respects.bind (blind_attempt _ _)
  intro jtiText
  exact blind_pure _

lemma blind_enrollWithToken (body : EnrollWithTokenRequest) (env : RedeemEnv) :
    Blind (enrollWithToken app body env) := by
  rw [enrollWithToken_parts]
  apply Respects.bind (blind_checkToken _)
  intro p
  unfold redeemChecked
  apply Respects.bind (blind_insert _)
  intro err
  apply Respects.bind (blind_ensure _ _)
  intro _
  apply Respects.bind (blind_attempt _ _)
  intro displayName
  apply Respects.bind (blind_attempt _ _)
  intro cert
  apply Respects.bind (blind_query _)
  intro conflict
  apply Respects.bind (blind_ensure _ _)
  intro _
  apply Respects.bind (blind_attempt _ _)
  intro nameText
  apply Respects.bind (blind_orRaise _ _)
  intro name
  apply Respects.bind (blind_execute _)
  intro _
  apply Respects.bind (blind_attempt _ _)
  intro sealed
  apply Respects.bind (blind_log _ _ _ _ _)
  intro _
  exact blind_pure _

lemma blind_regenerateCrl (env : CrlEnv) : Blind (regenerateCrl app env) := by
  unfold regenerateCrl
  split
  · exact blind_pure _
  · apply Respects.bind (blind_query _)
    intro serials
    dsimp only
    split
    · apply Respects.bind (blind_writeFile _ _)
      intro _
      apply Respects.bind
      · apply Respects.write
        rintro w w' ⟨trail, rfl⟩
        exact ⟨trail, rfl⟩
      · intro _
        exact blind_pure _
    · exact blind_pure _

lemma blind_changeStatus {permission action orgId : String} {status : OrgStatus} {hook : Api Unit}
    {user : Option FLUser} {t : Decimal} (hhook : Blind hook) :
    Blind (changeStatus app permission status action hook user orgId t) := by
  unfold changeStatus
  apply Respects.bind (blind_flRequire _ _)
  intro u
  apply Respects.bind (blind_query _)
  intro org
  apply Respects.bind (blind_ensure _ _)
  intro _
  apply Respects.bind (blind_execute _)
  intro _
  apply Respects.bind hhook
  intro _
  apply Respects.bind (blind_log _ _ _ _ _)
  intro _
  exact blind_pure _

lemma blind_revokeOrg (crl : CrlEnv) (user : Option FLUser) (orgId : String) (t : Decimal) :
    Blind (revokeOrg app crl user orgId t) := by
  apply blind_changeStatus
  apply Respects.bind (blind_regenerateCrl crl)
  intro _
  exact blind_pure _

lemma blind_orgLeaveRequest (req : Request) (orgId : String) (body : LeaveRequestBody)
    (env : LeaveEnv) : Blind (orgLeaveRequest app req orgId body env) := by
  unfold orgLeaveRequest
  apply Respects.bind
  · apply Respects.read
    rintro w w' ⟨trail, rfl⟩
    rfl
  intro auth
  apply Respects.bind (blind_attempt _ _)
  intro authOrgId
  apply Respects.bind (blind_ensure _ _)
  intro _
  apply Respects.bind (blind_query _)
  intro found
  apply Respects.bind (blind_orRaise _ _)
  intro org
  apply Respects.bind (blind_ensure _ _)
  intro _
  apply Respects.bind (blind_attempt _ _)
  intro att
  apply Respects.bind (blind_attempt _ _)
  intro type
  apply Respects.bind (blind_attempt _ _)
  intro attOrgId
  apply Respects.bind (blind_ensure _ _)
  intro _
  apply Respects.bind (blind_orRaise _ _)
  intro pubPem
  apply Respects.bind (blind_orRaise _ _)
  intro sigBytes
  apply Respects.bind (blind_attempt _ _)
  intro pub
  apply Respects.bind (blind_ensure _ _)
  intro _
  apply Respects.bind (blind_execute _)
  intro _
  apply Respects.bind (blind_attempt _ _)
  intro reason
  apply Respects.bind (blind_log _ _ _ _ _)
  intro _
  exact blind_pure _

lemma blind_approveRemoval (user : Option FLUser) (orgId : String) (env : ApproveEnv) :
    Blind (approveRemoval app user orgId env) := by
  unfold approveRemoval
  apply Respects.bind (blind_flRequire _ _)
  intro u
  apply Respects.bind (blind_query _)
  intro found
  apply Respects.bind (blind_orRaise _ _)
  intro org
  apply Respects.bind (blind_ensure _ _)
  intro _
  apply Respects.bind (blind_orRaise _ _)
  intro coordPriv
  apply Respects.bind (blind_execute _)
  intro _
  apply Respects.bind (blind_execute _)
  intro _
  apply Respects.bind (blind_regenerateCrl _)
  intro _
  apply Respects.bind (blind_log _ _ _ _ _)
  intro _
  exact blind_pure _

end Orgs

section Rounds

variable {app : App}

lemma blind_startRound (user : Option FLUser) (body : StartRoundRequest) (env : StartRoundEnv) :
    Blind (startRound app user body env) := by
  unfold startRound
  apply Respects.bind (blind_flRequire _ _)
  intro u
  apply Respects.bind (blind_query _)
  intro invited
  apply Respects.bind (blind_ensure _ _)
  intro _
  apply Respects.bind (blind_insert _)
  intro roundId
  apply Respects.bind (blind_execute _)
  intro _
  apply Respects.bind (blind_log _ _ _ _ _)
  intro _
  exact blind_pure _

lemma blind_issueRoundChallenge (req : Request) (roundId : ℤ) (env : ChallengeEnv) :
    Blind (issueRoundChallenge app req roundId env) := by
  unfold issueRoundChallenge
  apply Respects.bind (blind_authenticate _ _)
  intro orgId
  apply Respects.bind (blind_requireRound _)
  intro r
  apply Respects.bind (blind_ensure _ _)
  intro _
  apply Respects.bind (blind_query _)
  intro org
  apply Respects.bind (blind_ensure _ _)
  intro _
  apply Respects.bind (blind_tryExecute _ _)
  intro _
  exact blind_pure _

lemma blind_checkFields (att : Json) (fields : List String) : Blind (checkFields att fields) := by
  induction fields with
  | nil => exact blind_pure _
  | cons required rest ih =>
    rw [checkFields]
    apply Respects.bind (blind_attempt _ _)
    intro present
    apply Respects.bind (blind_ensure _ _)
    intro _
    exact ih

lemma blind_contributeStart (c : ContributeRequest) : Blind (contributeStart app c) := by
  unfold contributeStart
  apply Respects.bind (blind_authenticate _ _)
  intro orgId
  apply Respects.bind (blind_attempt _ _)
  intro att
  apply Respects.bind (blind_checkFields _ _)
  intro _
  apply Respects.bind (blind_attempt _ _)
  intro type
  apply Respects.bind (blind_ensure _ _)
  intro _
  apply Respects.bind (blind_attempt _ _)
  intro attOrgId
  apply Respects.bind (blind_ensure _ _)
  intro _
  apply Respects.bind (blind_attempt _ _)
  intro attRoundId
  apply Respects.bind (blind_attempt _ _)
  intro attRound
  apply Respects.bind (blind_ensure _ _)
  intro _
  apply Respects.bind (blind_requireRound _)
  intro r
  apply Respects.bind (blind_ensure _ _)
  intro _
  apply Respects.bind (blind_query _)
  intro dup
  apply Respects.bind (blind_ensure _ _)
  intro _
  exact blind_pure _

lemma blind_recordRow (p : Pending) (sha challenge : String) (accepted : Bool)
    (modelPath rejectionReason : Option String) (now : ℚ) :
    Blind (recordRow p sha challenge accepted modelPath rejectionReason now) := by
  unfold recordRow
  apply Respects.bind (blind_attempt _ _)
  intro count
  apply Respects.bind (blind_attempt _ _)
  intro n
  apply Respects.bind (blind_attempt _ _)
  intro numExamples
  exact blind_insert _

lemma blind_contributeFinish (p : Pending) (env : ContributeEnv) :
    Blind (contributeFinish app p env) := by
  unfold contributeFinish
  apply Respects.bind (blind_ensure _ _)
  intro _
  apply Respects.bind (blind_attempt _ _)
  intro claimed
  apply Respects.bind (blind_ensure _ _)
  intro _
  apply Respects.bind (blind_attempt _ _)
  intro sentText
  apply Respects.bind (blind_attempt _ _)
  intro sent
  apply Respects.bind (blind_ensure _ _)
  intro _
  apply Respects.bind (blind_attempt _ _)
  intro challenge
  apply Respects.bind (blind_attempt _ _)
  intro challengeText
  apply Respects.bind (blind_insert _)
  intro err
  apply Respects.bind (blind_ensure _ _)
  intro _
  apply Respects.bind (blind_query _)
  intro key
  apply Respects.bind (blind_orRaise _ _)
  intro pubPem
  apply Respects.bind (blind_attempt _ _)
  intro pub
  apply Respects.bind (blind_orRaise _ _)
  intro sigBytes
  split
  · apply Respects.bind (blind_recordRow _ _ _ _ _ _ _)
    intro _
    apply Respects.bind (blind_log _ _ _ _ _)
    intro _
    exact blind_raise _
  · apply Respects.bind (blind_writeFile _ _)
    intro _
    apply Respects.bind (blind_recordRow _ _ _ _ _ _ _)
    intro cid
    apply Respects.bind (blind_attempt _ _)
    intro count
    apply Respects.bind (blind_attempt _ _)
    intro n
    apply Respects.bind (blind_log _ _ _ _ _)
    intro _
    exact blind_pure _

lemma blind_scoreContributions {tm : TrustManager} {k : ℤ} {env : ScoreEnv} {i : ℕ}
    {cs : List Store.AcceptedModel} : Blind (scoreContributions app tm k env i cs) := by
  induction cs generalizing i with
  | nil => exact blind_pure _
  | cons c cs ih =>
    rw [scoreContributions]
    apply Respects.bind
    · apply Respects.read
      rintro w w' ⟨trail, rfl⟩
      rfl
    intro content
    cases content with
    | none =>
      apply Respects.bind ih
      intro tally
      exact blind_pure _
    | some mb =>
      apply Respects.bind (blind_insert _)
      intro ev
      apply Respects.bind ih
      intro tally
      exact blind_pure _

lemma blind_stageRound {u : FLUser} {r : RoundRow} {k : ℤ} {responded : ℕ} {gate : Gate}
    {updates : List TrustUpdate} {bytes : Bytes} {info : MergeInfo} {env : AggregateEnv} :
    Blind (stageRound app u r k responded gate updates bytes info env) := by
  unfold stageRound
  apply Respects.bind (blind_writeFile _ _)
  intro _
  apply Respects.bind (blind_insert _)
  intro versionId
  apply Respects.bind (blind_execute _)
  intro _
  apply Respects.bind (blind_log _ _ _ _ _)
  intro _
  exact blind_pure _

lemma blind_concludeRound {k : ℤ} {env : AggregateEnv} {u : FLUser} {r : RoundRow}
    {responded : ℕ} {tally : Tally} : Blind (concludeRound app k env u r responded tally) := by
  unfold concludeRound
  apply Respects.bind (blind_ensure _ _)
  intro _
  apply Respects.bind (blind_attempt _ _)
  rintro ⟨canonical, gate⟩
  dsimp only
  split
  · apply Respects.bind (blind_attempt _ _)
    intro shown
    apply Respects.bind (blind_log _ _ _ _ _)
    intro _
    apply Respects.bind (blind_attempt _ _)
    intro merged
    exact blind_stageRound
  · apply Respects.bind (blind_attempt _ _)
    intro merged
    exact blind_stageRound

lemma blind_aggregateRound (user : Option FLUser) (k : ℤ) (env : AggregateEnv) :
    Blind (aggregateRound app user k env) := by
  rw [aggregateRound_parts]
  apply Respects.bind
  · apply dueRound_readsOnly.respects
    rintro w w' ⟨trail, rfl⟩
    rfl
  intro checked
  apply Respects.bind
  · apply Respects.read
    rintro w w' ⟨trail, rfl⟩
    rfl
  intro accepted
  apply Respects.bind (blind_ensure _ _)
  intro _
  apply Respects.bind blind_scoreContributions
  intro tally
  exact blind_concludeRound

lemma blind_publishRoundModel (user : Option FLUser) (roundId : ℤ) (env : PublishEnv) :
    Blind (publishRoundModel app user roundId env) := by
  unfold publishRoundModel
  apply Respects.bind (blind_flRequire _ _)
  intro u
  apply Respects.bind (blind_requireRound _)
  intro _
  apply Respects.bind (blind_query _)
  intro found
  apply Respects.bind (blind_orRaise _ _)
  intro staged
  apply Respects.bind (blind_ensure _ _)
  intro _
  apply Respects.bind (blind_insert _)
  intro promoted
  apply Respects.bind (blind_execute _)
  intro _
  apply Respects.bind (blind_orRaise _ _)
  intro gm
  apply Respects.bind (blind_log _ _ _ _ _)
  intro _
  exact blind_pure _

lemma blind_rollbackGlobalModel (user : Option FLUser) (versionId : ℤ) (env : RollbackEnv) :
    Blind (rollbackGlobalModel app user versionId env) := by
  unfold rollbackGlobalModel
  apply Respects.bind (blind_flRequire _ _)
  intro u
  apply Respects.bind (blind_attempt _ _)
  intro id
  apply Respects.bind (blind_query _)
  intro found
  apply Respects.bind (blind_orRaise _ _)
  intro target
  apply Respects.bind (blind_ensure _ _)
  intro _
  apply Respects.bind (blind_insert _)
  intro promoted
  apply Respects.bind (blind_orRaise _ _)
  intro gm
  apply Respects.bind (blind_log _ _ _ _ _)
  intro _
  exact blind_pure _

end Rounds

/-! ### Runs -/

/-- The same uploads are in flight over worlds with the same data. -/
structure SameState (s t : Sys) : Prop where
  world : SameData s.world t.world
  inFlight : t.inFlight = s.inFlight

section Runs

variable {app : App} {s t : Sys}

lemma SameState.refl (s : Sys) : SameState s s := ⟨.refl s.world, rfl⟩

lemma SameState.trans {u : Sys} (h : SameState s t) (h' : SameState t u) : SameState s u :=
  ⟨h.world.trans h'.world, h'.inFlight.trans h.inFlight⟩

lemma SameState.run {α : Type} {m : Api α} (hm : Blind m) (h : SameState s t) :
    SameState (s.run m) (t.run m) := ⟨(hm _ _ h.world).2, h.inFlight⟩

/-- An event does to states with the same data the same. -/
theorem sameState_next (app : App) (e : Event) (h : SameState s t) :
    SameState (next app e s) (next app e t) := by
  cases e with
  | enroll user body env => exact h.run (blind_enrollOrg user body env)
  | mintToken user body env => exact h.run (blind_mintEnrollToken user body env)
  | redeemToken body env => exact h.run (blind_enrollWithToken body env)
  | block user orgId at' => exact h.run (blind_changeStatus (blind_pure _))
  | unblock user orgId at' => exact h.run (blind_changeStatus (blind_pure _))
  | revoke user orgId crl at' => exact h.run (blind_revokeOrg crl user orgId at')
  | leaveRequest req orgId body env => exact h.run (blind_orgLeaveRequest req orgId body env)
  | approveRemoval user orgId env => exact h.run (blind_approveRemoval user orgId env)
  | startRound user body env => exact h.run (blind_startRound user body env)
  | challenge req roundId env => exact h.run (blind_issueRoundChallenge req roundId env)
  | contribute c =>
    obtain ⟨hout, hworld⟩ := @blind_contributeStart app c _ _ h.world
    simp only [FlCoordinator.next]
    rcases hs : contributeStart app c s.world with ⟨r, v⟩
    rcases ht : contributeStart app c t.world with ⟨r', v'⟩
    rw [hs, ht] at hout hworld
    obtain rfl : r = r' := hout
    cases r with
    | error d => exact ⟨hworld, h.inFlight⟩
    | ok p => exact ⟨hworld, congrArg (· ++ [p]) h.inFlight⟩
  | resume i env =>
    simp only [FlCoordinator.next, h.inFlight]
    cases s.inFlight[i]? with
    | none => exact h
    | some p => exact ⟨(blind_contributeFinish p env _ _ h.world).2, rfl⟩
  | aggregate user roundId env => exact h.run (blind_aggregateRound user roundId env)
  | publish user roundId env => exact h.run (blind_publishRoundModel user roundId env)
  | rollback user versionId env => exact h.run (blind_rollbackGlobalModel user versionId env)

namespace Console

variable (c : Console)

/-- The events that the requests of a console run amount to. -/
def events (cs : List ConsoleEvent) : List Event :=
  cs.filterMap fun e =>
    match e with
    | .request creds env e => c.resolve creds env e
    | _ => none

lemma login_sameData (username apiKey : String) (env : LoginEnv) (w : World) :
    SameData w (login c username apiKey env w).2 := by
  change (login c username apiKey env).wp (fun _ t => SameData w t) w
  unfold login
  apply wp_attempt_bind (fun _ _ => .refl w)
  intro found _
  split
  · exact .refl w
  · apply wp_log_bind
    exact .log w ..

lemma logout_sameData (flSession : Option String) (env : LogoutEnv) (w : World) :
    SameData w (logout c flSession env w).2 := by
  change (logout c flSession env).wp (fun _ t => SameData w t) w
  unfold logout
  apply wp_attempt_bind (fun _ _ => .refl w)
  intro found _
  split
  · exact .refl w
  · apply wp_log_bind
    exact .log w ..

/-- A run of requests with credentials leaves the data that the event machine leaves after the
events that the requests amount to. -/
theorem after_sameState (cs : List ConsoleEvent) :
    SameState (FlCoordinator.after c.app (c.events cs)) (c.after cs) := by
  have hrun : ∀ {s t : Sys}, SameState s t →
      SameState (Lib.run (FlCoordinator.next c.app) s (c.events cs)) (Lib.run c.next t cs) := by
    induction cs with
    | nil => exact id
    | cons e cs ih =>
      intro s t h
      cases e with
      | login username apiKey env =>
        apply ih
        exact h.trans ⟨c.login_sameData username apiKey env t.world, rfl⟩
      | logout flSession env =>
        apply ih
        exact h.trans ⟨c.logout_sameData flSession env t.world, rfl⟩
      | request creds env e =>
        have hevents : c.events (.request creds env e :: cs) =
            (c.resolve creds env e).toList ++ c.events cs := by
          simp only [events, List.filterMap_cons]
          cases c.resolve creds env e <;> rfl
        have hstep : Lib.run c.next t (.request creds env e :: cs) =
            Lib.run c.next (c.next (.request creds env e) t) cs := rfl
        rw [hevents, run_append, hstep]
        cases hres : c.resolve creds env e with
        | none =>
          have hidle : c.next (.request creds env e) t = t := by simp only [next, hres]
          rw [hidle]
          exact ih h
        | some e' =>
          have hmove : c.next (.request creds env e) t = FlCoordinator.next c.app e' t := by
            simp only [next, hres]
          rw [hmove]
          exact ih (sameState_next c.app e' h)
  exact hrun (.refl _)

end Console

end Runs

end FlCoordinator
