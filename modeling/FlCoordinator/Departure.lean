import FlCoordinator.Authority
import FlCoordinator.Interrupted
import FlCoordinator.Removal

/-!
# An org can leave

The removal handshake to its end: what an org signs with `build_leave_request_attestation` is
accepted, it waits while only others are decided about, and the approval lets the org go with a
signed confirmation.
-/

namespace FlCoordinator

open Lib Handler

/-! ### The request -/

/-- The fields that a leave request signs. -/
def leavePayload (orgId reason requestedAt : String) : List (String × Json) :=
  [("type", .str "fl.leave_request.v1"),
    ("org_id", .str orgId),
    ("reason", .str reason),
    ("requested_at", .str requestedAt)]

def buildLeaveRequestAttestation (orgId reason requestedAt : String) : Bytes :=
  canonicalJson (.obj (leavePayload orgId reason requestedAt))

/-- What an org posts to leave. -/
def leaveBody (host : Host) (priv : Bytes) (orgId reason requestedAt : String) :
    LeaveRequestBody where
  attestation := String.ofList
    ((Json.decodeUtf8 (buildLeaveRequestAttestation orgId reason requestedAt)).getD [])
  signature := toHex (sign host priv (buildLeaveRequestAttestation orgId reason requestedAt))

section Request

variable {host : Host} {priv : Bytes} {x reason requestedAt : String}

lemma encode_leaveBody : encode (leaveBody host priv x reason requestedAt).attestation =
    buildLeaveRequestAttestation x reason requestedAt := by
  have hascii := Json.ascii_text Json.readable_compact
    (Json.sortKeys (.obj (leavePayload x reason requestedAt)))
  have hdecode : Json.decodeUtf8 (buildLeaveRequestAttestation x reason requestedAt) =
      some (Json.text Json.compact (Json.sortKeys (.obj (leavePayload x reason requestedAt)))) := by
    rw [buildLeaveRequestAttestation, canonicalJson, Json.encodeChars_ascii hascii]
    exact Json.decodeUtf8_ascii hascii
  rw [leaveBody, hdecode, Option.getD_some, encode_eq, String.toList_ofList]
  rfl

lemma loads_leaveRequest (py : Python) :
    ∃ att, py.loads (buildLeaveRequestAttestation x reason requestedAt) = .ok att ∧
      att.get "type" .null = .ok (.str "fl.leave_request.v1") ∧
      att.get "org_id" .null = .ok (.str x) ∧ att.get "reason" (.str "") = .ok (.str reason) := by
  have hkeys : ((leavePayload x reason requestedAt).map (·.1)).Nodup := by simp [leavePayload]
  have hget : ∀ {key : String} {v d : Json},
      Json.field? key (leavePayload x reason requestedAt) = some v → Json.sortKeys v = v →
      (Json.sortKeys (.obj (leavePayload x reason requestedAt))).get key d = .ok v := by
    intro key v d hfield hv
    obtain ⟨gs, hgs, hgets⟩ := Json.get_sortKeys key hkeys
    rw [hfield, Option.map_some, hv] at hgets
    rw [hgs, Json.get, hgets]
    rfl
  exact ⟨_, loads_flat_canonicalJson py hkeys (by simp [leavePayload, Json.Modest]), hget rfl rfl,
    hget rfl rfl, hget rfl rfl⟩

end Request

section Handshake

variable {app : App} {x : String} {priv : Bytes} {req : Request} {w : World}

/-- An org that is not removed: it is authenticated with its requests and signs with the key that
is registered for it. -/
structure Member (app : App) (x : String) (priv : Bytes) (req : Request) (authAt : ℚ) (w : World) :
    Prop where
  caller : getAuthenticatedOrgId app req w authAt = .ok x
  row : ∃ row pem, w.store.getOrg x = some row ∧ row.status ≠ .revoked ∧
    row.publicKeyPem = some pem ∧ pem ≠ "" ∧
    publicKeyFromPem app.host (encode pem) = .ok (app.host.ed25519Public priv)
  signs : ∀ msg, verify app.host (app.host.ed25519Public priv) msg (sign app.host priv msg) = true

/-- The org has asked to leave, and nobody has answered. -/
def AwaitsRemoval (x : String) (s : Store) : Prop :=
  ∃ row, s.getOrg x = some row ∧ row.status = .leavePending

lemma orgLeaveRequest_member {env : LeaveEnv} {reason requestedAt : String}
    (h : Member app x priv req env.authAt w) :
    AwaitsRemoval x (orgLeaveRequest app req x (leaveBody app.host priv x reason requestedAt)
      env w).2.store := by
  obtain ⟨row, pem, hrow, hst, hpem, hne, hkey⟩ := h.row
  obtain ⟨att, hloads, htype, horg, hreason⟩ := @loads_leaveRequest x reason requestedAt app.python
  have hsigned := h.signs (buildLeaveRequestAttestation x reason requestedAt)
  rw [← @encode_leaveBody app.host priv x reason requestedAt] at hloads hsigned
  have hget := getOrg_setLeaveRequest w.store x
    (encode (leaveBody app.host priv x reason requestedAt).attestation)
    (leaveBody app.host priv x reason requestedAt).signature env.requestedAt x
  rw [if_pos rfl, hrow] at hget
  change (orgLeaveRequest app req x (leaveBody app.host priv x reason requestedAt) env).wp
    (fun _ t => AwaitsRemoval x t.store) w
  unfold orgLeaveRequest
  apply wp_read_bind
  apply wp_attempt_bind_of h.caller
  apply wp_ensure_bind_of rfl
  apply wp_query_bind
  apply wp_orRaise_bind_of hrow
  apply wp_ensure_bind_of hst
  apply wp_attempt_bind_of hloads
  apply wp_attempt_bind_of htype
  apply wp_attempt_bind_of horg
  apply wp_ensure_bind_of ⟨by simp [Json.isStr], by simp [Json.isStr]⟩
  apply wp_orRaise_bind_of (a := pem) (by rw [hpem]; simp [hne])
  apply wp_orRaise_bind_of (fromHex_toHex _)
  apply wp_attempt_bind_of hkey
  rw [← @encode_leaveBody app.host priv x reason requestedAt]
  apply wp_ensure_bind_of hsigned
  apply wp_execute_bind
  apply wp_attempt_bind_of hreason
  apply wp_log_bind
  exact ⟨_, hget, rfl⟩

/-! ### The wait -/

/-- The event is no decision about the org: no permitted operator sets its status or approves its
removal. -/
def Event.Spares (x : String) (e : Event) : Prop :=
  (∀ st, e.statusSet ≠ some (x, st)) ∧
    ∀ user env, e = .approveRemoval user x env → ¬Permitted user "fl_revoke_org"

lemma awaitsRemoval_next {e : Event} {s : Sys} (h : AwaitsRemoval x s.world.store)
    (he : e.Spares x) : AwaitsRemoval x (next app e s).world.store := by
  have hsame := h
  obtain ⟨row, hrow, hst⟩ := h
  cases (next_effect app s e).rowMove x with
  | kept core =>
    rw [hrow] at core
    obtain ⟨row', hrow', heq⟩ := Option.map_eq_some_iff.mp core
    have hsame : row'.core.status = row.core.status := congrArg OrgRow.status heq
    exact ⟨row', hrow', hsame.trans hst⟩
  | enrolled pem env en event free installs new =>
    rw [free row hrow] at hst
    cases hst
  | status row' st event old new => exact absurd event (he.1 st)
  | left req body env row' event old asked evidence new => exact ⟨_, new, rfl⟩
  | removed user env coordPriv row' event key old leaving new =>
    rw [next_unpermitted (p := "fl_revoke_org") (by rw [event]; rfl) (by
      rw [event]
      exact he.2 user env event)]
    exact hsame

lemma awaitsRemoval_run {s : Sys} {mid : List Event} (h : AwaitsRemoval x s.world.store)
    (hmid : ∀ e ∈ mid, e.Spares x) : AwaitsRemoval x (run (next app) s mid).world.store := by
  induction mid generalizing s with
  | nil => exact h
  | cons e mid ih =>
    obtain ⟨he, hmid⟩ := List.forall_mem_cons.mp hmid
    rw [run_cons]
    exact ih (awaitsRemoval_next h he) hmid

/-! ### The approval -/

variable {user : Option FLUser} {env : ApproveEnv} {coordPriv : Bytes}

/-- The org is removed, and the others are as they were. Whoever holds its API key is handed the
signed confirmation, and a CRL that can be written lists its certificate. -/
structure HasLeft (app : App) (coordPriv : Bytes) (x : String) (env : ApproveEnv) (w t : World) :
    Prop where
  revoked : ∃ row, t.store.getOrg x = some row ∧ row.status = .revoked
  confirmed : ∀ row key poll now, t.store.getOrg x = some row → poll.apiKey = some key → key ≠ "" →
    row.apiKeyHash = app.host.sha256hex (encode key) →
    (removalStatus app poll x now t).1 = .ok
      { orgId := x
        status := .revoked
        removalConfirm := some (buildRemovalConfirmAttestation x env.revokedAt,
          some (toHex (sign app.host coordPriv (buildRemovalConfirmAttestation x env.revokedAt)))) }
  listed : app.ca.isSome → env.crl.writable = true → ∃ crl, t.crl = some crl ∧
    ∀ row serial, t.store.getOrg x = some row → row.certSerial = some serial →
      serial ∈ crl.revoked
  others : ∀ y, y ≠ x → t.store.getOrg y = w.store.getOrg y

lemma approveRemoval_answered (h : AwaitsRemoval x w.store)
    (hcoord : app.coordPriv = some coordPriv) (hperm : Permitted user "fl_revoke_org") :
    Removed app user x env w (approveRemoval app user x env w).2 := by
  obtain ⟨row, hrow, hst⟩ := h
  have hok : (approveRemoval app user x env).wp (fun r _ => ∃ c, r = .ok c) w := by
    unfold approveRemoval
    apply wp_flRequire_bind (fun hno => absurd hperm hno)
    intro u _ _
    apply wp_query_bind
    apply wp_orRaise_bind_of hrow
    apply wp_ensure_bind_of hst
    apply wp_orRaise_bind_of hcoord
    refine wp_execute_bind (wp_execute_bind ?_)
    refine wp_call_bind (regenerateCrl_spec env.crl) (fun e t h => ?_) fun b t h => ?_
    · obtain ⟨b, hb⟩ := h.1
      cases hb
    · apply wp_log_bind
      exact ⟨_, rfl⟩
  obtain ⟨c, hc⟩ := hok
  rcases approveRemoval_spec app w user x env with ⟨⟨e, he⟩, -⟩ | ⟨-, h⟩
  · rw [hc] at he
    cases he
  · exact h

lemma Removed.hasLeft {t : World} (h : Removed app user x env w t)
    (hcoord : app.coordPriv = some coordPriv) : HasLeft app coordPriv x env w t := by
  obtain ⟨coordPriv', hpriv, hstore⟩ := h.store
  obtain rfl := Option.some.inj (hcoord.symm.trans hpriv)
  obtain ⟨old, hold, -⟩ := h.pending
  have hget : ∀ y, t.store.getOrg y = if x = y then (w.store.getOrg y).map (fun r =>
      r.removed (buildRemovalConfirmAttestation x env.revokedAt) (toHex (sign app.host coordPriv
        (buildRemovalConfirmAttestation x env.revokedAt)))) else w.store.getOrg y := by
    intro y
    rw [hstore, getOrg_removedStore]
  have hrow := hget x
  rw [if_pos rfl, hold, Option.map_some] at hrow
  constructor
  · exact ⟨_, hrow, rfl⟩
  · intro row key poll now hfound hkey hne hhash
    obtain rfl := Option.some.inj (hrow.symm.trans hfound)
    change (removalStatus app poll x now).wp (fun r _ => r = _) t
    unfold removalStatus
    apply wp_query_bind
    apply wp_orRaise_bind_of hrow
    apply wp_read_bind
    apply wp_ensure_bind_of
    · right
      simp [hkey, hne, hhash]
    · have hsome : (buildRemovalConfirmAttestation x env.revokedAt).isEmpty = false := by
        rw [List.isEmpty_eq_false_iff]
        exact removalConfirm_ne_nil x env.revokedAt
      have hconfirm : (some (buildRemovalConfirmAttestation x env.revokedAt)).filter
          (fun b => !List.isEmpty b) = some (buildRemovalConfirmAttestation x env.revokedAt) := by
        simp [hsome]
      dsimp only [OrgRow.removed]
      rw [hconfirm]
      rfl
  · intro hca hw
    obtain ⟨crl, hcrl, hlisted⟩ := h.crl.rebuilt hca hw
    refine ⟨crl, hcrl, fun row serial hfound hserial => ?_⟩
    obtain rfl := Option.some.inj (hrow.symm.trans hfound)
    rw [hlisted]
    refine Store.mem_listRevokedSerials.mpr ⟨_, ?_, rfl, hserial⟩
    have hid := Store.getOrg_orgId hrow
    rw [hid]
    exact hrow
  · intro y hy
    rw [hget, if_neg hy.symm]

/-- From every state of every run, a member can leave: its request is accepted, and once the
removal is approved, whatever happened in between short of a decision about it, it has left. -/
theorem leave_possible {es mid : List Event} {e : Event} {leave : LeaveEnv}
    {reason requestedAt : String}
    (hmember : Member app x priv req leave.authAt (after app es).world)
    (hfiled : e = .leaveRequest req x (leaveBody app.host priv x reason requestedAt) leave)
    (hmid : ∀ e ∈ mid, e.Spares x) (hcoord : app.coordPriv = some coordPriv)
    (hperm : Permitted user "fl_revoke_org") (env : ApproveEnv) :
    AwaitsRemoval x (after app (es ++ e :: mid)).world.store ∧
      HasLeft app coordPriv x env (after app (es ++ e :: mid)).world
        (after app (es ++ e :: mid ++ [.approveRemoval user x env])).world := by
  have hwaits : AwaitsRemoval x (after app (es ++ e :: mid)).world.store := by
    rw [after_append, run_cons, hfiled]
    exact awaitsRemoval_run (orgLeaveRequest_member hmember) hmid
  refine ⟨hwaits, ?_⟩
  rw [after_concat]
  exact (approveRemoval_answered hwaits hcoord hperm).hasLeft hcoord

/-- While one org waits, another is enrolled and blocked. -/
def meanwhile : List Event :=
  [Sample.enroll "y" [2] 12, .block (some Sample.admin) "y" Sample.zero]

lemma spares_meanwhile : ∀ e ∈ meanwhile, e.Spares "x" := by
  have hblock : (Event.block (some Sample.admin) "y" Sample.zero).statusSet =
      some ("y", .blocked) := by decide
  intro e he
  rcases List.mem_cons.mp he with rfl | he
  · exact ⟨nofun, nofun⟩
  · obtain rfl := List.mem_singleton.mp he
    refine ⟨fun st h => ?_, nofun⟩
    rw [hblock] at h
    exact absurd (congrArg Prod.fst (Option.some.inj h)) (by simp)

/-- The request of the org, over a connection with its certificate. -/
def sampleLeave : Event :=
  .leaveRequest (Sample.present (Sample.certOf "x" [1] 11)) "x"
    (leaveBody Sample.host [1] "x" "merger" "1970-01-01T00:01:20+00:00") ⟨80, 80, Sample.zero⟩

def sampleApprove : ApproveEnv := ⟨"1970-01-01T00:01:40+00:00", ⟨100, true⟩, Sample.zero⟩

theorem leave_possible_meanwhile :
    HasLeft Sample.app Sample.coordKey "x" sampleApprove
      (after Sample.app ([Sample.enroll "x" [1] 11] ++ sampleLeave :: meanwhile)).world
      (after Sample.app ([Sample.enroll "x" [1] 11] ++ sampleLeave :: meanwhile ++
        [.approveRemoval (some Sample.admin) "x" sampleApprove])).world := by
  have hrow : ((after Sample.app [Sample.enroll "x" [1] 11]).world.store.getOrg "x").map
      (fun r => (r.status, r.publicKeyPem)) = some (.active, some (Sample.ed25519Pem [1])) := by
    decide +kernel
  obtain ⟨row, hrow, hfields⟩ := Option.map_eq_some_iff.mp hrow
  obtain ⟨hst, hpem⟩ := Prod.mk.inj hfields
  have hmember : Member Sample.app "x" [1] (Sample.present (Sample.certOf "x" [1] 11))
      (LeaveEnv.authAt ⟨80, 80, Sample.zero⟩) (after Sample.app [Sample.enroll "x" [1] 11]).world :=
    { caller := by decide +kernel
      row := ⟨row, _, hrow, by rw [hst]; decide, hpem, by decide, by decide +kernel⟩
      signs := fun msg => Sample.verify_tag [1] msg }
  exact (leave_possible hmember rfl spares_meanwhile rfl ⟨Sample.admin, rfl, by decide⟩
    sampleApprove).2

end Handshake

end FlCoordinator
