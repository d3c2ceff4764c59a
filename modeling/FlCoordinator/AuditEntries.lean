import FlCoordinator.Authority
import FlCoordinator.Completeness

/-!
# What the audit trail says

Every entry is true: the request that appended it came from the operator or the org it names, and
left the database as it says.
-/

namespace FlCoordinator

open Lib Handler

/-! ### Entries -/

/-- What `log` was called with. -/
structure Tells (row : AuditRow) (action actor target : String) (details : Json) : Prop where
  action : row.action = action
  actor : row.actor = actor
  target : row.target = some target
  details : row.details = some (Json.dumps details)

/-- Between the two worlds rows were appended, and each of them satisfies `P`. -/
def Entered (P : AuditRow → Prop) (w t : World) : Prop :=
  ∃ new, t.audit.rows = w.audit.rows ++ new ∧ ∀ row ∈ new, P row

namespace Entered

variable {P Q : AuditRow → Prop} {w v t : World}

lemma silent (h : t.audit = w.audit) : Entered P w t := ⟨[], by rw [h, List.append_nil], nofun⟩

lemma refl (w : World) : Entered P w w := silent rfl

lemma mono (h : Entered P w t) (hPQ : ∀ row, P row → Q row) : Entered Q w t := by
  obtain ⟨new, hrows, hnew⟩ := h
  exact ⟨new, hrows, fun row hrow => hPQ row (hnew row hrow)⟩

lemma log (h : Entered P w v) {app : App} {timestamp : Decimal} {action actor target : String}
    {details : Json} (hP : ∀ row, Tells row action actor target details → P row) :
    Entered P w (v.logAudit app timestamp action actor target details) := by
  obtain ⟨new, hrows, hnew⟩ := h
  obtain ⟨row, hlog, htext⟩ :
      ∃ row, (v.logAudit app timestamp action actor target details).audit.rows =
      v.audit.rows ++ [row] ∧ Tells row action actor target details := ⟨_, rfl, rfl, rfl, rfl, rfl⟩
  refine ⟨new ++ [row], ?_, ?_⟩
  · rw [hlog, hrows, List.append_assoc]
  · intro r hr
    rcases List.mem_append.mp hr with hr | hr
    · exact hnew r hr
    · rw [List.mem_singleton.mp hr]
      exact hP row htext

end Entered

/-- The operator whose request the event is has the permission. -/
structure ByOperator (permission : String) (user : Option FLUser) (u : FLUser) : Prop where
  user : user = some u
  permitted : permission ∈ u.role.permissions

/-- The row is true of an event that leads from the world `w`, where the uploads of `queue` are
suspended, to the world `t`. -/
inductive Attests (app : App) (queue : List Pending) (w t : World) : Event → AuditRow → Prop
  | enrolled {user : Option FLUser} {body : EnrollOrgRequest} {env : EnrollEnv} {row : AuditRow}
      (u : FLUser) (operator : ByOperator "fl_enroll_org" user u) (org : OrgRow) (serial : ℤ)
      (text : Tells row "fl.org.enroll" u.username body.orgId (.obj [
        ("display_name", .str body.displayName),
        ("cert_serial", .str (intStr serial)),
        ("pub_key_sha256",
          .str (hashPrefix (app.host.sha256hex (encode body.publicKeyPem))))]))
      (free : w.store.enrollConflict body.orgId = none)
      (new : t.store.getOrg body.orgId = some org) (active : org.status = .active)
      (certificate : org.certSerial = some serial) (key : org.publicKeyPem = some body.publicKeyPem)
      (enrolledBy : org.enrolledBy = u.username) : Attests app queue w t (.enroll user body env) row
  | minted {user : Option FLUser} {body : EnrollTokenRequest} {env : MintEnv} {row : AuditRow}
      (u : FLUser) (operator : ByOperator "fl_enroll_org" user u) (token : TokenRow)
      (text : Tells row "fl.org.enroll_token" u.username body.orgId (.obj [
        ("jti", .str token.jti), ("ttl_minutes", .int body.ttlMinutes)]))
      (fresh : w.store.tokens.get? token.jti = none)
      (new : t.store.tokens.get? token.jti = some token) (org : token.orgId = body.orgId)
      (unused : token.consumed = false) : Attests app queue w t (.mintToken user body env) row
  | selfEnrolled {body : EnrollWithTokenRequest} {env : RedeemEnv} {row : AuditRow} (jti : Json)
      (token : TokenRow) (org : OrgRow) (serial : ℤ)
      (text : Tells row "fl.org.self_enrolled" s!"org:{body.orgId}" body.orgId (.obj [
        ("jti", jti), ("cert_serial", .str (intStr serial))]))
      (named : app.host.bindText jti = .ok (some token.jti))
      (unused : w.store.tokens.get? token.jti = some token ∧ token.consumed = false ∧
        token.orgId = body.orgId)
      (spent : t.store.tokens.get? token.jti =
        some { token with consumed := true, consumedAt := some env.consumedAt })
      (free : w.store.enrollConflict body.orgId = none)
      (new : t.store.getOrg body.orgId = some org) (active : org.status = .active)
      (certificate : org.certSerial = some serial)
      (key : org.publicKeyPem = some body.ed25519PubPem) :
      Attests app queue w t (.redeemToken body env) row
  | blocked {user : Option FLUser} {orgId : String} {loggedAt : Decimal} {row : AuditRow}
      (u : FLUser) (operator : ByOperator "fl_block_org" user u) (org : OrgRow)
      (text : Tells row "fl.org.block" u.username orgId (.obj []))
      (new : t.store.getOrg orgId = some org) (status : org.status = .blocked) :
      Attests app queue w t (.block user orgId loggedAt) row
  | unblocked {user : Option FLUser} {orgId : String} {loggedAt : Decimal} {row : AuditRow}
      (u : FLUser) (operator : ByOperator "fl_unblock_org" user u) (org : OrgRow)
      (text : Tells row "fl.org.unblock" u.username orgId (.obj []))
      (new : t.store.getOrg orgId = some org) (status : org.status = .active) :
      Attests app queue w t (.unblock user orgId loggedAt) row
  | revoked {user : Option FLUser} {orgId : String} {crl : CrlEnv} {loggedAt : Decimal}
      {row : AuditRow} (u : FLUser) (operator : ByOperator "fl_revoke_org" user u) (org : OrgRow)
      (text : Tells row "fl.org.revoke" u.username orgId (.obj []))
      (new : t.store.getOrg orgId = some org) (status : org.status = .revoked) :
      Attests app queue w t (.revoke user orgId crl loggedAt) row
  | leaveRequested {req : Request} {orgId : String} {body : LeaveRequestBody} {env : LeaveEnv}
      {row : AuditRow} (org : OrgRow) (att given : Json) (reason : String)
      (caller : getAuthenticatedOrgId app req w env.authAt = .ok orgId)
      (parsed : app.python.loads (encode body.attestation) = .ok att)
      (asked : att.get "reason" (.str "") = .ok given)
      (shown : reason = String.ofList ((app.host.strOf given).toList.take 200))
      (text : Tells row "fl.org.leave_requested" s!"org:{orgId}" orgId (.obj [
        ("reason", .str reason)]))
      (new : t.store.getOrg orgId = some org) (status : org.status = .leavePending)
      (kept : org.leaveAttestation = some (encode body.attestation)) :
      Attests app queue w t (.leaveRequest req orgId body env) row
  | removalApproved {user : Option FLUser} {orgId : String} {env : ApproveEnv} {row : AuditRow}
      (u : FLUser) (operator : ByOperator "fl_revoke_org" user u) (old org : OrgRow)
      (text : Tells row "fl.org.removal_approved" u.username orgId (.obj []))
      (asked : w.store.getOrg orgId = some old ∧ old.status = .leavePending)
      (new : t.store.getOrg orgId = some org) (status : org.status = .revoked)
      (confirmed : org.removalAttestation =
        some (buildRemovalConfirmAttestation orgId env.revokedAt)) :
      Attests app queue w t (.approveRemoval user orgId env) row
  | started {user : Option FLUser} {body : StartRoundRequest} {env : StartRoundEnv} {row : AuditRow}
      (u : FLUser) (operator : ByOperator "fl_start_round" user u) (k : ℤ) (r : RoundRow)
      (text : Tells row "fl.round.start" u.username s!"round_{intStr k}" (.obj [
        ("epsilon", Json.ofDecimal body.epsilon),
        ("num_boost_rounds", .int body.numBoostRounds),
        ("invited_orgs", Json.ofStrs ((invitedOrgs w.store body.targetOrgIds).map (·.orgId))),
        ("announced", .bool r.announceAttestation.isSome)]))
      (fresh : w.store.getRound k = none) (new : t.store.getRound k = some r)
      (running : r.status = .running) (startedBy : r.startedBy = u.username)
      (params : r.params = body.params app.observationHours) :
      Attests app queue w t (.startRound user body env) row
  | signatureInvalid {i : ℕ} {env : ContributeEnv} {row : AuditRow} (p : Pending)
      (c : ContributionRow) (queued : queue[i]? = some p)
      (text : Tells row "fl.contribution.signature_invalid" s!"org:{c.orgId}"
        s!"round_{intStr c.roundId}" (.obj [("model_sha256", .str (hashPrefix c.modelSha256))]))
      (request : c.orgId = p.orgId ∧ c.roundId = p.roundId ∧
        c.modelSha256 = app.host.sha256hex p.upload)
      (new : c ∈ t.store.contributions.rows) (fresh : c ∉ w.store.contributions.rows)
      (rejected : c.accepted = false) : Attests app queue w t (.resume i env) row
  | accepted {i : ℕ} {env : ContributeEnv} {row : AuditRow} (p : Pending) (c : ContributionRow)
      (queued : queue[i]? = some p)
      (text : Tells row "fl.contribution.accepted" s!"org:{c.orgId}" s!"round_{intStr c.roundId}"
        (.obj [
          ("contribution_id", .int c.contributionId),
          ("model_sha256", .str (hashPrefix c.modelSha256)),
          ("num_examples", .int c.numExamples)]))
      (request : c.orgId = p.orgId ∧ c.roundId = p.roundId ∧
        c.modelSha256 = app.host.sha256hex p.upload)
      (new : c ∈ t.store.contributions.rows) (fresh : c ∉ w.store.contributions.rows)
      (accepted : c.accepted = true) : Attests app queue w t (.resume i env) row
  | schemaMismatch {user : Option FLUser} {k : ℤ} {env : AggregateEnv} {row : AuditRow}
      (u : FLUser) (operator : ByOperator "fl_aggregate_round" user u) (canonical : Schema)
      (shown : String) (orgs : List String)
      (text : Tells row "fl.round.schema_mismatch" u.username s!"round_{intStr k}" (.obj [
        ("canonical", .str shown), ("excluded_orgs", Json.ofStrs orgs)]))
      (schema : describeSchema canonical = .ok shown)
      (unfit : ∀ x, x ∈ orgs ↔
        ∃ v ∈ trustedIn app k env w, v.orgId = x ∧ ¬FitsSchema app.python canonical v.modelBytes) :
      Attests app queue w t (.aggregate user k env) row
  | aggregated {user : Option FLUser} {k : ℤ} {env : AggregateEnv} {row : AuditRow}
      (u : FLUser) (operator : ByOperator "fl_aggregate_round" user u) (r : RoundRow)
      (g : GlobalModelRow) (metrics : EvalMetrics)
      (text : Tells row "fl.round.aggregated" u.username s!"round_{intStr k}" (.obj [
        ("version_id", .int g.versionId),
        ("global_model_sha256", .str (hashPrefix g.modelHash)),
        ("accepted", Json.ofStrs (acceptedOrgsOf metrics.contributors)),
        ("total_trees", .int metrics.merge.totalTrees)]))
      (round : t.store.getRound k = some r) (status : r.status = .aggregated)
      (fresh : w.store.getGlobalModel g.versionId = none)
      (version : t.store.getGlobalModel g.versionId = some g) (staged : g.status = .staged)
      (results : g.roundId = k ∧ g.evalMetrics = some metrics ∧ r.evalMetrics = some metrics ∧
        r.globalModelHash = some g.modelHash) : Attests app queue w t (.aggregate user k env) row
  | published {user : Option FLUser} {k : ℤ} {env : PublishEnv} {row : AuditRow}
      (u : FLUser) (operator : ByOperator "fl_aggregate_round" user u) (r : RoundRow)
      (g : GlobalModelRow)
      (text : Tells row "fl.global_model.publish" u.username s!"round_{intStr k}" (.obj [
        ("version_id", .int g.versionId), ("model_sha256", .str (hashPrefix g.modelHash))]))
      (round : t.store.getRound k = some r) (status : r.status = .completed)
      (version : t.store.getGlobalModel g.versionId = some g) (ofRound : g.roundId = k)
      (active : g.status = .active ∧ g.promotedBy = some u.username) :
      Attests app queue w t (.publish user k env) row
  | rolledBack {user : Option FLUser} {versionId : ℤ} {env : RollbackEnv} {row : AuditRow}
      (u : FLUser) (operator : ByOperator "fl_aggregate_round" user u) (g : GlobalModelRow)
      (text : Tells row "fl.global_model.rollback" u.username s!"version_{intStr versionId}" (.obj [
        ("version_id", .int versionId), ("round_id", .int g.roundId),
        ("model_sha256", .str (hashPrefix g.modelHash))]))
      (version : t.store.getGlobalModel versionId = some g)
      (active : g.status = .active ∧ g.promotedBy = some u.username) :
      Attests app queue w t (.rollback user versionId env) row

/-! ### Orgs -/

section Orgs

variable {app : App} {queue : List Pending} {w : World}

lemma storedEnrollment {s t : Store} {e : Store.Enrollment} {now : ℚ} (h : s.enrollOrg e now = .ok t) :
    s.enrollConflict e.orgId = none ∧ t.getOrg e.orgId = some (e.row now) := by
  unfold Store.enrollOrg at h
  split at h
  · cases h
  · rename_i hfree
    cases h
    rw [Store.getOrg_insertOrg, if_pos rfl]
    exact ⟨hfree, rfl⟩

lemma enrollOrg_entries (user : Option FLUser) (body : EnrollOrgRequest) (env : EnrollEnv) :
    (enrollOrg app user body env).wp
      (fun _ t => Entered (Attests app queue w t (.enroll user body env)) w t) w := by
  unfold enrollOrg
  apply wp_flRequire_bind (fun _ _ => .refl w)
  intro u hu hperm
  apply wp_attempt_bind (fun _ _ => .refl w)
  intro pub _
  apply wp_orRaise_bind (fun _ => .refl w)
  intro ca _
  apply wp_attempt_bind (fun _ _ => .refl w)
  intro cert _
  apply wp_tryExecute_bind (fun _ _ => .refl w)
  intro s hs
  obtain ⟨hfree, hnew⟩ := storedEnrollment hs
  apply wp_log_bind
  -- the missing key is noticed after the entry
  apply wp_orRaise_bind
  · intro _
    apply Entered.log (.silent rfl)
    intro row htext
    exact .enrolled u ⟨hu, hperm⟩ _ _ htext hfree hnew rfl rfl rfl rfl
  · intro coordPriv _
    apply Entered.log (.silent rfl)
    intro row htext
    exact .enrolled u ⟨hu, hperm⟩ _ _ htext hfree hnew rfl rfl rfl rfl

lemma mintEnrollToken_entries (user : Option FLUser) (body : EnrollTokenRequest) (env : MintEnv) :
    (mintEnrollToken app user body env).wp
      (fun _ t => Entered (Attests app queue w t (.mintToken user body env)) w t) w := by
  unfold mintEnrollToken
  apply wp_flRequire_bind (fun _ _ => .refl w)
  intro u hu hperm
  apply wp_query_bind
  apply wp_ensure_bind (fun _ => .refl w)
  intro _
  apply wp_orRaise_bind (fun _ => .refl w)
  intro keys _
  apply wp_tryExecute_bind (fun _ _ => .refl w)
  intro s hs
  obtain ⟨tokens, rfl, hfresh, hget⟩ := Store.createEnrollToken_ok hs
  have hnew := hget env.jti
  rw [if_pos rfl] at hnew
  apply wp_log_bind
  apply Entered.log (.silent rfl)
  intro row htext
  exact .minted u ⟨hu, hperm⟩
    { jti := env.jti
      orgId := body.orgId
      displayName := body.displayName
      issuedAt := env.insertedAt
      expiresAt := env.now + body.ttlMinutes * 60
      consumed := false
      consumedAt := none } htext hfresh hnew rfl rfl

lemma spentToken {s t : Store} {jti : Option String} {orgId : String} {now : ℚ}
    (h : s.consumeEnrollToken jti orgId now = (none, t)) :
    ∃ token, jti = some token.jti ∧ (s.tokens.get? token.jti = some token ∧
      token.consumed = false ∧ token.orgId = orgId) ∧
      t.tokens.get? token.jti = some { token with consumed := true, consumedAt := some now } ∧
      t.orgs = s.orgs := by
  obtain ⟨token, hjti, hstored, horg, hunused, -, rfl⟩ := Store.consumeEnrollToken_ok h
  refine ⟨token, hjti, ⟨hstored, hunused, horg⟩, ?_, rfl⟩
  rw [Store.get?_consumeTokenRow, if_pos rfl, hstored]
  rfl

lemma enrollWithToken_entries (body : EnrollWithTokenRequest) (env : RedeemEnv) :
    (enrollWithToken app body env).wp
      (fun _ t => Entered (Attests app queue w t (.redeemToken body env)) w t) w := by
  unfold enrollWithToken
  apply wp_orRaise_bind (fun _ => .refl w)
  intro keys _
  apply wp_orRaise_bind (fun _ => .refl w)
  intro parts _
  apply wp_ensure_bind (fun _ => .refl w)
  intro _
  apply wp_attempt_bind (fun _ _ => .refl w)
  intro tok _
  apply wp_attempt_bind (fun _ _ => .refl w)
  intro type _
  apply wp_attempt_bind (fun _ _ => .refl w)
  intro tokOrgId _
  apply wp_ensure_bind (fun _ => .refl w)
  intro _
  apply wp_attempt_bind (fun _ _ => .refl w)
  intro edPub _
  apply wp_attempt_bind (fun _ _ => .refl w)
  intro _ _
  apply wp_attempt_bind (fun _ _ => .refl w)
  intro popAtt _
  apply wp_orRaise_bind (fun _ => .refl w)
  intro popSig _
  apply wp_ensure_bind (fun _ => .refl w)
  intro _
  apply wp_attempt_bind (fun _ _ => .refl w)
  intro jti _
  apply wp_attempt_bind (fun _ _ => .refl w)
  intro jtiText hjti
  apply wp_insert_bind
  generalize hout : w.store.consumeEnrollToken jtiText body.orgId env.consumedAt = out
  obtain ⟨err, s⟩ := out
  apply wp_ensure_bind (fun _ => .silent rfl)
  intro herr
  obtain rfl : err = none := herr
  obtain ⟨token, rfl, hunused, hspent, horgs⟩ := spentToken hout
  apply wp_attempt_bind (fun _ _ => .silent rfl)
  intro displayName _
  apply wp_attempt_bind (fun _ _ => .silent rfl)
  intro cert _
  apply wp_query_bind
  apply wp_ensure_bind (fun _ => .silent rfl)
  intro hfree
  apply wp_attempt_bind (fun _ _ => .silent rfl)
  intro nameText _
  apply wp_orRaise_bind (fun _ => .silent rfl)
  intro name _
  apply wp_execute_bind
  apply wp_attempt_bind (fun _ _ => .silent rfl)
  intro sealed _
  apply wp_log_bind
  apply Entered.log (.silent rfl)
  intro row htext
  have hsame : w.store.enrollConflict body.orgId = s.enrollConflict body.orgId := by
    unfold Store.enrollConflict Store.getOrg
    rw [horgs]
  have hnew := fun e : Store.Enrollment =>
    (@Store.getOrg_insertOrg s env.enroll.enrolledAt e e.orgId).trans (if_pos rfl)
  exact .selfEnrolled jti token _ _ htext hjti hunused hspent (hsame.trans hfree) (hnew _) rfl rfl
    rfl

/-- A hook that neither fails nor touches the org or the trail does not come between a status change
and its entry. -/
lemma changeStatus_entries {permission action orgId : String} {status : OrgStatus}
    {hook : Api Unit} {user : Option FLUser} {loggedAt : Decimal} {e : Event}
    (hhook : ∀ v : World, hook.wp (fun r t => r = .ok () ∧ t.store = v.store ∧ t.audit = v.audit) v)
    (htells : ∀ (u : FLUser) (t : World) (org : OrgRow) (row : AuditRow),
      ByOperator permission user u → t.store.getOrg orgId = some org → org.status = status →
      Tells row action u.username orgId (.obj []) → Attests app queue w t e row) :
    (changeStatus app permission status action hook user orgId loggedAt).wp
      (fun _ t => Entered (Attests app queue w t e) w t) w := by
  unfold changeStatus
  apply wp_flRequire_bind (fun _ _ => .refl w)
  intro u hu hperm
  apply wp_query_bind
  apply wp_ensure_bind (fun _ => .refl w)
  intro hknown
  apply wp_execute_bind
  apply wp_call_bind (hhook _)
  · intro d t h
    cases h.1
  · intro _ t h
    apply wp_log_bind
    apply Entered.log (.silent h.2.2)
    intro row htext
    obtain ⟨old, hold⟩ := Option.isSome_iff_exists.mp hknown
    have hnew : t.store.getOrg orgId = some { old with status } := by
      rw [h.2.1]
      change (w.store.setOrgStatus orgId status).getOrg orgId = _
      rw [Store.getOrg_setOrgStatus, if_pos rfl, hold]
      rfl
    exact htells u _ _ row ⟨hu, hperm⟩ hnew rfl htext

lemma regenerateCrl_silent (env : CrlEnv) (v : World) :
    (regenerateCrl app env).wp
      (fun r t => (∃ b, r = .ok b) ∧ t.store = v.store ∧ t.audit = v.audit) v := by
  have hspec : (regenerateCrl app env).wp
      (fun r t => (∃ b, r = .ok b) ∧ CrlRebuilt app env v.store v t) v := regenerateCrl_spec env
  exact ⟨hspec.1, hspec.2.store, (regenerateCrl_audit env v).2⟩

lemma blockOrg_entries (user : Option FLUser) (orgId : String) (loggedAt : Decimal) :
    (blockOrg app user orgId loggedAt).wp
      (fun _ t => Entered (Attests app queue w t (.block user orgId loggedAt)) w t) w := by
  apply changeStatus_entries (fun _ => ⟨rfl, rfl, rfl⟩)
  intro u t org row operator new status text
  exact .blocked u operator org text new status

lemma unblockOrg_entries (user : Option FLUser) (orgId : String) (loggedAt : Decimal) :
    (unblockOrg app user orgId loggedAt).wp
      (fun _ t => Entered (Attests app queue w t (.unblock user orgId loggedAt)) w t) w := by
  apply changeStatus_entries (fun _ => ⟨rfl, rfl, rfl⟩)
  intro u t org row operator new status text
  exact .unblocked u operator org text new status

lemma revokeOrg_entries (crl : CrlEnv) (user : Option FLUser) (orgId : String)
    (loggedAt : Decimal) :
    (revokeOrg app crl user orgId loggedAt).wp
      (fun _ t => Entered (Attests app queue w t (.revoke user orgId crl loggedAt)) w t) w := by
  apply changeStatus_entries
  · intro v
    apply wp_call_bind (regenerateCrl_silent crl v)
    · rintro d t ⟨⟨b, hb⟩, -⟩
      cases hb
    · intro b t h
      exact ⟨rfl, h.2⟩
  · intro u t org row operator new status text
    exact .revoked u operator org text new status

lemma orgLeaveRequest_entries (req : Request) (orgId : String) (body : LeaveRequestBody)
    (env : LeaveEnv) :
    (orgLeaveRequest app req orgId body env).wp
      (fun _ t => Entered (Attests app queue w t (.leaveRequest req orgId body env)) w t) w := by
  unfold orgLeaveRequest
  apply wp_read_bind
  apply wp_attempt_bind (fun _ _ => .refl w)
  intro authOrgId hauth
  apply wp_ensure_bind (fun _ => .refl w)
  intro hsame
  obtain rfl : authOrgId = orgId := hsame
  apply wp_query_bind
  apply wp_orRaise_bind (fun _ => .refl w)
  intro org horg
  apply wp_ensure_bind (fun _ => .refl w)
  intro _
  apply wp_attempt_bind (fun _ _ => .refl w)
  intro att hparsed
  apply wp_attempt_bind (fun _ _ => .refl w)
  intro type _
  apply wp_attempt_bind (fun _ _ => .refl w)
  intro attOrgId _
  apply wp_ensure_bind (fun _ => .refl w)
  intro _
  apply wp_orRaise_bind (fun _ => .refl w)
  intro pem _
  apply wp_orRaise_bind (fun _ => .refl w)
  intro sig _
  apply wp_attempt_bind (fun _ _ => .refl w)
  intro pub _
  apply wp_ensure_bind (fun _ => .refl w)
  intro _
  apply wp_execute_bind
  apply wp_attempt_bind (fun _ _ => .silent rfl)
  intro given hgiven
  apply wp_log_bind
  apply Entered.log (.silent rfl)
  intro row htext
  have hnew := getOrg_setLeaveRequest w.store authOrgId (encode body.attestation) body.signature
    env.requestedAt authOrgId
  rw [if_pos rfl, horg] at hnew
  exact .leaveRequested _ att given _ hauth hparsed hgiven rfl htext hnew rfl rfl

lemma approveRemoval_entries (user : Option FLUser) (orgId : String) (env : ApproveEnv) :
    (approveRemoval app user orgId env).wp
      (fun _ t => Entered (Attests app queue w t (.approveRemoval user orgId env)) w t) w := by
  unfold approveRemoval
  apply wp_flRequire_bind (fun _ _ => .refl w)
  intro u hu hperm
  apply wp_query_bind
  apply wp_orRaise_bind (fun _ => .refl w)
  intro org horg
  apply wp_ensure_bind (fun _ => .refl w)
  intro hasked
  apply wp_orRaise_bind (fun _ => .refl w)
  intro coordPriv _
  apply wp_execute_bind
  apply wp_execute_bind
  apply wp_call_bind (regenerateCrl_silent env.crl _)
  · rintro d t ⟨⟨b, hb⟩, -⟩
    cases hb
  · intro b t h
    apply wp_log_bind
    apply Entered.log (.silent h.2.2)
    intro row htext
    have hnew : t.store.getOrg orgId = some (org.removed
        (buildRemovalConfirmAttestation orgId env.revokedAt)
        (toHex (sign app.host coordPriv (buildRemovalConfirmAttestation orgId env.revokedAt)))) := by
      rw [h.2.1]
      change (removedStore app coordPriv orgId env w.store).getOrg orgId = _
      rw [getOrg_removedStore, if_pos rfl, horg]
      rfl
    exact .removalApproved u ⟨hu, hperm⟩ org _ htext ⟨horg, hasked⟩ hnew rfl rfl

end Orgs

/-! ### Rounds -/

section Rounds

variable {app : App} {queue : List Pending} {w : World}

lemma startRound_entries (user : Option FLUser) (body : StartRoundRequest) (env : StartRoundEnv) :
    (startRound app user body env).wp
      (fun _ t => Entered (Attests app queue w t (.startRound user body env)) w t) w := by
  unfold startRound
  apply wp_flRequire_bind (fun _ _ => .refl w)
  intro u hu hperm
  apply wp_query_bind
  apply wp_ensure_bind (fun _ => .refl w)
  intro _
  apply wp_insert_bind
  apply wp_execute_bind
  apply wp_log_bind
  apply Entered.log (.silent rfl)
  intro row htext
  obtain ⟨rounds, hopen, -, hget⟩ := Store.openRound_eq w.store env.startedAt u.username
    (body.params app.observationHours) (invitedOrgs w.store body.targetOrgIds).length
    (announcementOf app body env ((invitedOrgs w.store body.targetOrgIds).map (·.orgId))
      (w.store.rounds.seq + 1))
  have hnew := hget (w.store.rounds.seq + 1)
  rw [if_pos rfl] at hnew
  have hann : (announcementOf app body env ((invitedOrgs w.store body.targetOrgIds).map (·.orgId))
      (w.store.rounds.seq + 1)).isSome = ((announcementOf app body env
        ((invitedOrgs w.store body.targetOrgIds).map (·.orgId))
        (w.store.rounds.seq + 1)).map (·.1)).isSome := Option.isSome_map.symm
  refine .started u ⟨hu, hperm⟩ (w.store.rounds.seq + 1) (Store.openedRow u.username
    (body.params app.observationHours) (invitedOrgs w.store body.targetOrgIds).length env.startedAt
    (announcementOf app body env ((invitedOrgs w.store body.targetOrgIds).map (·.orgId))
      (w.store.rounds.seq + 1)) (w.store.rounds.seq + 1)) ?_ AutoTable.get?_seq_succ ?_ rfl rfl rfl
  · change Tells row _ _ _ (.obj [_, _, _, ("announced", .bool ((announcementOf app body env
      ((invitedOrgs w.store body.targetOrgIds).map (·.orgId))
      (w.store.rounds.seq + 1)).map (·.1)).isSome)])
    rw [← hann]
    exact htext
  · change (w.store.openRound u.username (body.params app.observationHours)
      (invitedOrgs w.store body.targetOrgIds).length env.startedAt
      (announcementOf app body env ((invitedOrgs w.store body.targetOrgIds).map (·.orgId))
        (w.store.rounds.seq + 1))).getRound (w.store.rounds.seq + 1) = _
    rw [hopen]
    exact hnew

lemma recordRow_row {p : Pending} {sha challenge : String} {accepted : Bool}
    {modelPath rejectionReason : Option String} {now : ℚ} (v : World) :
    (recordRow p sha challenge accepted modelPath rejectionReason now).wp
      (fun r t => t.audit = v.audit ∧ ∀ id, r = .ok id → ∃ x c, p.att.item "num_examples" = .ok x ∧
        x.toInt = .ok c.numExamples ∧ c ∈ t.store.contributions.rows ∧
        c ∉ v.store.contributions.rows ∧ c.contributionId = id ∧ c.accepted = accepted ∧
        c.orgId = p.orgId ∧ c.roundId = p.roundId ∧ c.modelSha256 = sha) v := by
  unfold recordRow
  apply wp_attempt_bind (fun _ _ => ⟨rfl, nofun⟩)
  intro x hx
  apply wp_attempt_bind (fun _ _ => ⟨rfl, nofun⟩)
  intro n hn
  apply wp_attempt_bind (fun _ _ => ⟨rfl, nofun⟩)
  intro m hm
  obtain rfl := bindInt_ok hm
  refine ⟨rfl, ?_⟩
  intro id hid
  cases hid
  refine ⟨x, _, hx, hn, Store.mem_recordContribution.mpr (Or.inr rfl), ?_, rfl, rfl, rfl, rfl, rfl⟩
  intro hmem
  have hbound := v.store.contributions.bounded _ hmem
  have hid : ∀ c : Store.Contribution, (c.row now (v.store.contributions.seq + 1)).contributionId =
      v.store.contributions.seq + 1 := fun _ => rfl
  rw [hid] at hbound
  omega

lemma contributeFinish_entries {i : ℕ} {p : Pending} (hp : queue[i]? = some p)
    (env : ContributeEnv) :
    (contributeFinish app p env).wp
      (fun _ t => Entered (Attests app queue w t (.resume i env)) w t) w := by
  unfold contributeFinish
  apply wp_ensure_bind (fun _ => .refl w)
  intro _
  apply wp_attempt_bind (fun _ _ => .refl w)
  intro claimed _
  apply wp_ensure_bind (fun _ => .refl w)
  intro _
  apply wp_attempt_bind (fun _ _ => .refl w)
  intro sentText _
  apply wp_attempt_bind (fun _ _ => .refl w)
  intro sent _
  apply wp_ensure_bind (fun _ => .refl w)
  intro _
  apply wp_attempt_bind (fun _ _ => .refl w)
  intro challenge _
  apply wp_attempt_bind (fun _ _ => .refl w)
  intro challengeText _
  apply wp_insert_bind
  have hkept : (w.store.consumeChallenge challengeText p.orgId p.roundId
      env.consumedAt).2.contributions = w.store.contributions := by
    unfold Store.consumeChallenge
    split
    · rfl
    · split_ifs <;> rfl
  generalize w.store.consumeChallenge challengeText p.orgId p.roundId env.consumedAt = out at hkept ⊢
  apply wp_ensure_bind (fun _ => .silent rfl)
  intro _
  apply wp_query_bind
  apply wp_orRaise_bind (fun _ => .silent rfl)
  intro pem _
  apply wp_attempt_bind (fun _ _ => .silent rfl)
  intro pub _
  apply wp_orRaise_bind (fun _ => .silent rfl)
  intro sig _
  by_cases hver : verify app.host pub p.attBytes sig = false
  · rw [if_pos hver]
    apply wp_call_bind (recordRow_row _)
    · intro d t h
      exact .silent h.1
    · intro id t h
      obtain ⟨x, c, -, -, hnew, hfresh, -, hrejected, horg, hround, hsha⟩ := h.2 id rfl
      apply wp_log_bind
      apply Entered.log (.silent h.1)
      intro row htext
      rw [← horg, ← hround, ← hsha] at htext
      exact .signatureInvalid p c hp htext ⟨horg, hround, hsha⟩ hnew (hkept ▸ hfresh) hrejected
  · rw [if_neg hver]
    apply wp_writeFile_bind
    apply wp_call_bind (recordRow_row _)
    · intro d t h
      exact .silent h.1
    · intro id t h
      obtain ⟨x, c, hx, hn, hnew, hfresh, rfl, haccepted, horg, hround, hsha⟩ := h.2 id rfl
      apply wp_attempt_bind_of hx
      apply wp_attempt_bind_of hn
      apply wp_log_bind
      apply Entered.log (.silent h.1)
      intro row htext
      rw [← horg, ← hround, ← hsha] at htext
      exact .accepted p c hp htext ⟨horg, hround, hsha⟩ hnew (hkept ▸ hfresh) haccepted

lemma promoted_row {s : Store} {g : GlobalModelRow} {versionId : ℤ}
    (h : s.getGlobalModel versionId = some g) (username : String) (now : ℚ) :
    (s.promoteGlobalModel versionId username now).1 = some (Store.promotedRow username now g) ∧
      (s.promoteGlobalModel versionId username now).2.getGlobalModel versionId =
        some (Store.promotedRow username now g) := by
  have hsome : (s.getGlobalModel versionId).isSome := by rw [h]; rfl
  have hstored := Store.getGlobalModel_promoteGlobalModel s now hsome username versionId
  rw [if_pos rfl, h] at hstored
  obtain ⟨gm, hgm⟩ := promoteGlobalModel_isSome hsome username now
  have hsame : (s.promoteGlobalModel versionId username now).1 =
      (s.promoteGlobalModel versionId username now).2.getGlobalModel versionId := by
    unfold Store.promoteGlobalModel
    rw [h]
    rfl
  exact ⟨hsame.trans hstored, hstored⟩

lemma publishRoundModel_entries (user : Option FLUser) (roundId : ℤ) (env : PublishEnv) :
    (publishRoundModel app user roundId env).wp
      (fun _ t => Entered (Attests app queue w t (.publish user roundId env)) w t) w := by
  unfold publishRoundModel
  apply wp_flRequire_bind (fun _ _ => .refl w)
  intro u hu hperm
  apply wp_requireRound_bind (fun _ => .refl w)
  intro r hr
  apply wp_query_bind
  apply wp_orRaise_bind (fun _ => .refl w)
  intro g hstaged
  apply wp_ensure_bind (fun _ => .refl w)
  intro _
  apply wp_insert_bind
  apply wp_execute_bind
  obtain ⟨hfound, hround, -⟩ := Store.getStagedModelForRound_some hstaged
  obtain ⟨hout, hstored⟩ := promoted_row hfound u.username env.promotedAt
  apply wp_orRaise_bind_of hout
  apply wp_log_bind
  apply Entered.log (.silent rfl)
  intro row htext
  obtain ⟨versions, hprom⟩ := Store.promoteGlobalModel_frame w.store env.promotedAt g.versionId
    u.username
  have hnew := AutoTable.get?_update (t := w.store.rounds) roundId roundId
    (completedRow env.completedAt) fun _ => rfl
  have hrow : w.store.rounds.get? roundId = some r := hr
  rw [if_pos rfl, hrow] at hnew
  refine .published u ⟨hu, hperm⟩ (completedRow env.completedAt r)
    (Store.promotedRow u.username env.promotedAt g) htext ?_ rfl hstored hround ⟨rfl, rfl⟩
  change ((w.store.promoteGlobalModel g.versionId u.username env.promotedAt).2.setRoundStatus
    roundId .completed env.completedAt).getRound roundId = _
  rw [hprom]
  exact hnew

lemma rollbackGlobalModel_entries (user : Option FLUser) (versionId : ℤ) (env : RollbackEnv) :
    (rollbackGlobalModel app user versionId env).wp
      (fun _ t => Entered (Attests app queue w t (.rollback user versionId env)) w t) w := by
  unfold rollbackGlobalModel
  apply wp_flRequire_bind (fun _ _ => .refl w)
  intro u hu hperm
  apply wp_attempt_bind (fun _ _ => .refl w)
  intro id hid
  obtain rfl := bindInt_ok hid
  apply wp_query_bind
  apply wp_orRaise_bind (fun _ => .refl w)
  intro target htarget
  apply wp_ensure_bind (fun _ => .refl w)
  intro _
  apply wp_insert_bind
  obtain ⟨hout, hstored⟩ := promoted_row htarget u.username env.promotedAt
  apply wp_orRaise_bind_of hout
  apply wp_log_bind
  apply Entered.log (.silent rfl)
  intro row htext
  exact .rolledBack u ⟨hu, hperm⟩ _ htext hstored ⟨rfl, rfl⟩

lemma dueRound_operator {roundId : ℤ} {env : AggregateEnv} {user : Option FLUser} {u : FLUser}
    {r : RoundRow} {settings : TrustSettings}
    (h : (dueRound app roundId env user w).1 = .ok (u, r, settings)) :
    ByOperator "fl_aggregate_round" user u := by
  have hspec : (dueRound app roundId env user).wp (fun res _ => ∀ u r settings,
      res = .ok (u, r, settings) → ByOperator "fl_aggregate_round" user u) w := by
    have hfail : ∀ (e : Failure) u r settings,
        (Except.error e : Except Failure (FLUser × RoundRow × TrustSettings)) =
          .ok (u, r, settings) → ByOperator "fl_aggregate_round" user u := by
      intro e u r settings h
      cases h
    unfold dueRound requireRunning
    apply wp_flRequire_bind (fun _ e => hfail e)
    intro u hu hperm
    apply wp_requireRound_bind hfail
    intro r _
    apply wp_ensure_bind (fun _ => hfail _)
    intro _
    apply wp_ensure_bind (fun _ => hfail _)
    intro _
    apply wp_orRaise_bind (fun _ => hfail _)
    intro settings _ u' r' settings' h
    have hout : (Except.ok (u, r, settings) : Except Failure (FLUser × RoundRow × TrustSettings)) =
      .ok (u', r', settings') := h
    cases hout
    exact ⟨hu, hperm⟩
  exact hspec u r settings h

lemma stageRound_entries {user : Option FLUser} {u : FLUser} {roundId : ℤ} {env : AggregateEnv}
    {r : RoundRow} {responded : ℕ} {gate : Gate} {trustUpdates : List TrustUpdate} {bytes : Bytes}
    {info : MergeInfo} {v : World} (operator : ByOperator "fl_aggregate_round" user u)
    (hr : w.store.getRound roundId = some r) (htrust : TrustOnly w.store v.store)
    (hentered : ∀ t, Entered (Attests app queue w t (.aggregate user roundId env)) w v) :
    (stageRound app u r roundId responded gate trustUpdates bytes info env).wp
      (fun _ t => Entered (Attests app queue w t (.aggregate user roundId env)) w t) v := by
  unfold stageRound
  apply wp_writeFile_bind
  apply wp_insert_bind
  apply wp_execute_bind
  apply wp_log_bind
  have hversion := @getGlobalModel_stagedStore app r roundId responded gate bytes info env v.store
  obtain ⟨rounds, versions, hstage, hrounds, -⟩ := stagedStore_frame app r roundId responded gate
    bytes info env v.store
  have hround : (stagedStore app r roundId responded gate bytes info env v.store).getRound roundId =
      some (aggregatedRow app responded gate bytes info r) := by
    have hfound : v.store.getRound roundId = some r := by
      rw [Store.getRound, htrust.rounds]
      exact hr
    have hnew := hrounds roundId
    rw [if_pos rfl, hfound] at hnew
    rw [hstage]
    exact hnew
  have hfresh : w.store.getGlobalModel (v.store.globalModels.seq + 1) = none := by
    rw [htrust.globalModels]
    exact AutoTable.get?_seq_succ
  apply Entered.log (hentered _)
  intro row htext
  exact .aggregated u operator (aggregatedRow app responded gate bytes info r)
    (stagedVersion app r roundId gate bytes info env (v.store.globalModels.seq + 1))
    { merge := info, contributors := gate.results } htext hround rfl hfresh hversion rfl
    ⟨rfl, rfl, rfl, rfl⟩

lemma mem_excludedSchema {tally : Tally} {canonical : Schema} {gate : Gate}
    (h : schemaGate app.python tally = .ok (canonical, gate)) (x : String) :
    x ∈ gate.excludedSchema ↔
      ∃ v ∈ tally.survivors, v.orgId = x ∧ ¬FitsSchema app.python canonical v.modelBytes := by
  obtain ⟨-, hloop⟩ := schemaGate_loop h
  rw [gateLoop_excluded hloop, List.nil_append, List.mem_map]
  constructor
  · rintro ⟨v, hv, rfl⟩
    obtain ⟨hmem, hno⟩ := List.mem_filter.mp hv
    refine ⟨v, mem_sortSurvivors.mp hmem, rfl, ?_⟩
    rw [← agrees_eq_true]
    simpa using hno
  · rintro ⟨v, hv, rfl, hno⟩
    refine ⟨v, List.mem_filter.mpr ⟨mem_sortSurvivors.mpr hv, ?_⟩, rfl⟩
    rw [← agrees_eq_true] at hno
    simpa using hno

lemma concludeRound_entries {user : Option FLUser} {u : FLUser} {roundId : ℤ} {env : AggregateEnv}
    {r : RoundRow} {responded : ℕ} {tally : Tally} {v : World}
    (operator : ByOperator "fl_aggregate_round" user u) (hr : w.store.getRound roundId = some r)
    (htrust : TrustOnly w.store v.store) (haudit : v.audit = w.audit)
    (hsurvivors : tally.survivors = trustedIn app roundId env w) :
    (concludeRound app roundId env u r responded tally).wp
      (fun _ t => Entered (Attests app queue w t (.aggregate user roundId env)) w t) v := by
  unfold concludeRound
  apply wp_ensure_bind (fun _ => .silent haudit)
  intro _
  apply wp_attempt_bind (fun _ _ => .silent haudit)
  rintro ⟨canonical, gate⟩ hgate
  dsimp only
  by_cases hex : gate.excludedSchema ≠ []
  · rw [if_pos hex]
    apply wp_attempt_bind (fun _ _ => .silent haudit)
    intro shown hshown
    apply wp_log_bind
    have hentered : ∀ t, Entered (Attests app queue w t (.aggregate user roundId env)) w (v.logAudit app
        env.schemaLoggedAt "fl.round.schema_mismatch" u.username s!"round_{intStr roundId}" (.obj [
          ("canonical", .str shown), ("excluded_orgs", Json.ofStrs gate.excludedSchema)])) := by
      intro t
      apply Entered.log (.silent haudit)
      intro row htext
      refine .schemaMismatch u operator canonical shown _ htext hshown ?_
      intro x
      rw [mem_excludedSchema hgate, hsurvivors]
    apply wp_attempt_bind (fun _ _ => hentered _)
    intro merged _
    exact stageRound_entries operator hr htrust hentered
  · rw [if_neg hex]
    apply wp_attempt_bind (fun _ _ => .silent haudit)
    intro merged _
    exact stageRound_entries operator hr htrust fun _ => .silent haudit

lemma aggregateRound_entries (user : Option FLUser) (roundId : ℤ) (env : AggregateEnv) :
    (aggregateRound app user roundId env).wp
      (fun _ t => Entered (Attests app queue w t (.aggregate user roundId env)) w t) w := by
  rw [aggregateRound_parts, wp_bind, wp_def, dueRound_readsOnly.state w]
  cases hcheck : (dueRound app roundId env user w).1 with
  | error d => exact .refl w
  | ok checked =>
    obtain ⟨u, r, settings⟩ := checked
    obtain ⟨-, hr, htrust⟩ := due_of_dueRound hcheck
    apply wp_query_bind
    apply wp_ensure_bind (fun _ => .refl w)
    intro _
    apply wp_call_bind (scoreContributions_spec 0 _ w)
    · rintro d v ⟨tally, h, -⟩
      cases h
    · rintro tally v ⟨tally', h, hscored⟩
      cases h
      exact concludeRound_entries (dueRound_operator hcheck) hr hscored.frame.1 hscored.audit
        (trustedIn_eq htrust hscored)

end Rounds

/-! ### Runs -/

section Runs

/-- What one event adds to the trail. -/
theorem next_entries (app : App) (s : Sys) (e : Event) :
    Entered (Attests app s.inFlight s.world (next app e s).world e) s.world (next app e s).world := by
  cases e with
  | enroll user body env => exact enrollOrg_entries user body env
  | mintToken user body env => exact mintEnrollToken_entries user body env
  | redeemToken body env => exact enrollWithToken_entries body env
  | block user orgId loggedAt => exact blockOrg_entries user orgId loggedAt
  | unblock user orgId loggedAt => exact unblockOrg_entries user orgId loggedAt
  | revoke user orgId crl loggedAt => exact revokeOrg_entries crl user orgId loggedAt
  | leaveRequest req orgId body env => exact orgLeaveRequest_entries req orgId body env
  | approveRemoval user orgId env => exact approveRemoval_entries user orgId env
  | startRound user body env => exact startRound_entries user body env
  | challenge req roundId env =>
    apply Entered.silent
    have hspec : (issueRoundChallenge app req roundId env).wp (fun _ t => t.audit = s.world.audit)
        s.world := by
      have hsame : s.world.audit = s.world.audit := rfl
      unfold issueRoundChallenge requireRunning
      apply wp_authenticate_bind (fun _ => hsame)
      intro orgId _
      apply wp_requireRound_bind (fun _ => hsame)
      intro r _
      apply wp_ensure_bind (fun _ => hsame)
      intro _
      apply wp_query_bind
      apply wp_ensure_bind (fun _ => hsame)
      intro _
      apply wp_tryExecute_bind (fun _ _ => hsame)
      intro _ _
      exact hsame
    exact hspec
  | contribute c =>
    apply Entered.silent
    rw [next_contribute_world]
  | resume i env =>
    cases hp : s.inFlight[i]? with
    | none =>
      have hidle : next app (.resume i env) s = s := by simp only [next, hp]
      rw [hidle]
      exact .refl _
    | some p =>
      have hmove : (next app (.resume i env) s).world = (contributeFinish app p env s.world).2 := by
        simp only [next, hp]
      rw [hmove]
      exact contributeFinish_entries hp env
  | aggregate user roundId env => exact aggregateRound_entries user roundId env
  | publish user roundId env => exact publishRoundModel_entries user roundId env
  | rollback user versionId env => exact rollbackGlobalModel_entries user versionId env

/-- The row is true of a login, a logout or a request that leads from `s` to `t`. -/
inductive ConsoleAttests (c : Console) (s t : Sys) : ConsoleEvent → AuditRow → Prop
  | login {username apiKey : String} {env : LoginEnv} {row : AuditRow} (user : RosterUser)
      (holds : c.auth.HoldsKey c.app.host apiKey user) (named : user.username = username)
      (text : Tells row "fl.operator.login" username user.role.value (.obj [])) :
      ConsoleAttests c s t (.login username apiKey env) row
  | logout {flSession : Option String} {env : LogoutEnv} {row : AuditRow} (user : RosterUser)
      (session : currentUserFromCookie c flSession env.now = .ok (some user))
      (text : Tells row "fl.operator.logout" user.username "" (.obj [])) :
      ConsoleAttests c s t (.logout flSession env) row
  | request {creds : Credentials} {env : AuthEnv} {e : Event} {row : AuditRow} (e' : Event)
      (resolved : c.resolve creds env e = some e')
      (attests : Attests c.app s.inFlight s.world t.world e' row) :
      ConsoleAttests c s t (.request creds env e) row

variable (c : Console)

lemma login_entries (s t : Sys) (username apiKey : String) (env : LoginEnv) :
    (login c username apiKey env).wp (fun _ v => Entered
      (ConsoleAttests c s t (.login username apiKey env)) s.world v) s.world := by
  unfold login
  apply wp_attempt_bind (fun _ _ => .refl _)
  intro found hfound
  split
  · exact .refl _
  · rename_i user huser
    obtain ⟨rfl, hname⟩ := Option.filter_eq_some_iff.mp huser
    obtain rfl : user.username = username := of_decide_eq_true hname
    apply wp_log_bind
    apply Entered.log (.silent rfl)
    intro row htext
    exact .login user (FLAuthManager.authenticateApiKey_some hfound) rfl htext

lemma logout_entries (s t : Sys) (flSession : Option String) (env : LogoutEnv) :
    (logout c flSession env).wp (fun _ v => Entered
      (ConsoleAttests c s t (.logout flSession env)) s.world v) s.world := by
  unfold logout
  apply wp_attempt_bind (fun _ _ => .refl _)
  intro found hfound
  split
  · exact .refl _
  · rename_i user
    apply wp_log_bind
    apply Entered.log (.silent rfl)
    intro row htext
    exact .logout user hfound htext

lemma console_entries (s : Sys) (l : ConsoleEvent) :
    Entered (ConsoleAttests c s (c.next l s) l) s.world (c.next l s).world := by
  cases l with
  | login username apiKey env => exact login_entries c s _ username apiKey env
  | logout flSession env => exact logout_entries c s _ flSession env
  | request creds env e =>
    cases hres : c.resolve creds env e with
    | none =>
      rw [next_request_none hres]
      exact .refl _
    | some e' =>
      rw [next_request_some hres]
      apply (next_entries c.app s e').mono
      intro row hrow
      exact .request e' hres hrow

/-- Every entry of the trail is true: it was appended by a login, a logout or a request of the run,
in the order of the run, that did what the entry says. -/
theorem audit_truthful (cs : List ConsoleEvent) {i : ℕ} {row : AuditRow}
    (h : (c.after cs).world.audit.rows[i]? = some row) :
    ∃ pre l post, cs = pre ++ l :: post ∧ (c.after pre).world.audit.rows.length ≤ i ∧
      i < (c.after (pre ++ [l])).world.audit.rows.length ∧
      ConsoleAttests c (c.after pre) (c.after (pre ++ [l])) l row := by
  have horigin := run_origin c.next (F := fun s => s.world.audit.rows[i]? = some row)
    (G := fun s l => s.world.audit.rows.length ≤ i ∧ i < (c.next l s).world.audit.rows.length ∧
      ConsoleAttests c s (c.next l s) l row) (s := init c.app) nofun ?_ cs h
  · obtain ⟨pre, l, post, hcs, hlow, hhigh, hattests⟩ := horigin
    have hnext : c.after (pre ++ [l]) = c.next l (run c.next (init c.app) pre) := run_append _ _ _ _
    rw [← hnext] at hhigh hattests
    exact ⟨pre, l, post, hcs, hlow, hhigh, hattests⟩
  · intro s l hrow
    obtain ⟨new, hrows, hnew⟩ := console_entries c s l
    rw [hrows] at hrow ⊢
    by_cases hold : i < s.world.audit.rows.length
    · rw [List.getElem?_append_left hold] at hrow
      exact Or.inl hrow
    · rw [List.getElem?_append_right (not_lt.mp hold)] at hrow
      have hbound := (List.getElem?_eq_some_iff.mp hrow).1
      refine Or.inr ⟨not_lt.mp hold, ?_, hnew row (List.mem_of_getElem? hrow)⟩
      rw [List.length_append]
      omega

/-- The operator logs in, and a round is run to its aggregation. -/
def Sample.loggedRound : List ConsoleEvent :=
  .login "op" "o" Sample.loginEnv ::
    [Sample.enroll "x" [1] 11, Sample.start none, Sample.challenge "a" (Sample.certOf "x" [1] 11),
      Sample.contribute "x" "a" [1] 11 Sample.model, Sample.resume,
      Sample.aggregate (fun _ => .scored 1)].map
        (.request { apiKey := some "a" } { bearerAt := 20, sessionAt := 20 })

/-- The last of its five entries. -/
theorem audit_truthful_loggedRound :
    ∃ row pre l post, row.action = "fl.round.aggregated" ∧
      Sample.loggedRound = pre ++ l :: post ∧
      (Sample.console.after pre).world.audit.rows.length ≤ 4 ∧
      4 < (Sample.console.after (pre ++ [l])).world.audit.rows.length ∧
      ConsoleAttests Sample.console (Sample.console.after pre) (Sample.console.after (pre ++ [l])) l
        row := by
  have hlast : ((Sample.console.after Sample.loggedRound).world.audit.rows[4]?).map (·.action) =
      some "fl.round.aggregated" := by decide +kernel
  obtain ⟨row, hrow, haction⟩ := Option.map_eq_some_iff.mp hlast
  obtain ⟨pre, l, post, hsplit, hbefore, hafter, hattests⟩ := audit_truthful Sample.console _ hrow
  exact ⟨row, pre, l, post, haction, hsplit, hbefore, hafter, hattests⟩

end Runs

end FlCoordinator
