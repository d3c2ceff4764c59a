import FlCoordinator.Changes
import FlCoordinator.Sample

/-!
# The removal handshake

An org that leaves signs a request, and the coordinator answers with a signed confirmation. The
rows keep the evidence of both sides; the poll for the confirmation is another matter.
-/

namespace FlCoordinator

open Lib Handler

/-! ### Evidence -/

section Evidence

variable {app : App} {s : Sys}

/-- The row holds a leave request of its own org, signed under the key it holds. -/
def LeaveAcknowledged (app : App) (row : OrgRow) : Prop :=
  ∃ att sig, row.leaveAttestation = some att ∧ row.leaveSignature = some sig ∧
    LeaveEvidence app row.orgId row.publicKeyPem att sig

/-- The org is leaving, or its removal was confirmed. -/
def OrgRow.departing (r : OrgRow) : Prop := r.status = .leavePending ∨ r.removalAttestation.isSome

/-- Every org that is leaving or was removed on request has asked for it. -/
def DeparturesAcknowledged (app : App) (s : Store) : Prop :=
  ∀ x row, s.getOrg x = some row → row.departing → LeaveAcknowledged app row

lemma statusSet_ne_leavePending (e : Event) (x : String) :
    e.statusSet ≠ some (x, .leavePending) := by
  unfold Event.statusSet
  split <;> try split
  all_goals simp

lemma leaveAcknowledged_core {row : OrgRow} :
    LeaveAcknowledged app row.core ↔ LeaveAcknowledged app row := Iff.rfl

lemma departing_core {row : OrgRow} : row.core.departing ↔ row.departing := Iff.rfl

lemma departuresAcknowledged_next (e : Event) (h : DeparturesAcknowledged app s.world.store) :
    DeparturesAcknowledged app (next app e s).world.store := by
  intro x row' hrow' hdep
  cases (next_effect app s e).rowMove x with
  | kept core =>
    rw [hrow'] at core
    obtain ⟨row, hrow, heq⟩ := Option.map_eq_some_iff.mp core.symm
    rw [← departing_core, ← heq, departing_core] at hdep
    rw [← leaveAcknowledged_core, ← heq, leaveAcknowledged_core]
    exact h x row hrow hdep
  | enrolled pem env en event free installs new =>
    -- a new row starts active and without any confirmation
    rw [hrow'] at new
    obtain rfl := Option.some.inj new
    rcases hdep with hdep | hdep <;> cases hdep
  | status row st event old new =>
    rw [hrow'] at new
    obtain rfl := Option.some.inj new
    have hold : row.departing := by
      rcases hdep with hst | hconf
      · obtain rfl : st = .leavePending := hst
        exact absurd event (statusSet_ne_leavePending e x)
      · exact Or.inr hconf
    exact h x row old hold
  | left req body env row event old asked evidence new =>
    rw [hrow'] at new
    obtain rfl := Option.some.inj new
    refine ⟨_, _, rfl, rfl, ?_⟩
    change LeaveEvidence app row.orgId row.publicKeyPem _ _
    rw [Store.getOrg_orgId old]
    exact evidence
  | removed user env coordPriv row event key old leaving new =>
    rw [hrow'] at new
    obtain rfl := Option.some.inj new
    exact h x row old (Or.inl leaving)

/-- In every reachable state, an org that is leaving or whose removal was confirmed has a stored
leave request of its own, which verifies under the key now stored for it. -/
theorem departures_acknowledged {es : List Event} {x : String} {row : OrgRow}
    (hrow : (after app es).world.store.getOrg x = some row) (hdep : row.departing) :
    LeaveAcknowledged app row := by
  have hinv : DeparturesAcknowledged app (after app es).world.store := by
    refine run_invariant_all (next app) (I := fun s => DeparturesAcknowledged app s.world.store)
      (fun s e h => departuresAcknowledged_next e h) ?_ es
    intro x row hrow
    cases hrow
  exact hinv x row hrow hdep

/-- An org asks to leave, is blocked and unblocked, and asks again. -/
def leavesTwice : List Event :=
  [Sample.enroll "x" [1] 11, Sample.leave "x" [1] 11, .block (some Sample.admin) "x" Sample.zero,
    .unblock (some Sample.admin) "x" Sample.zero, Sample.leave "x" [1] 11, Sample.approve "x"]

theorem departures_acknowledged_leavesTwice :
    ∃ row, (after Sample.app leavesTwice).world.store.getOrg "x" = some row ∧
      row.removalAttestation.isSome ∧ LeaveAcknowledged Sample.app row := by
  have hrow : ((after Sample.app leavesTwice).world.store.getOrg "x").map
      (·.removalAttestation.isSome) = some true := by decide +kernel
  obtain ⟨row, hrow, hconf⟩ := Option.map_eq_some_iff.mp hrow
  exact ⟨row, hrow, hconf, departures_acknowledged hrow (Or.inr hconf)⟩

end Evidence

/-! ### The poll for the confirmation -/

section Poll

variable {app : App}

/-- A leave request of `x` that succeeds, from a caller identified by its certificate. -/
structure FilesLeave (app : App) (s : Sys) (e : Event) (x : String) : Prop where
  event : ∃ req body env, e = .leaveRequest req x body env ∧
    (presentedCert app req).bind (orgIdOfCert app s.world env.authAt) = some x
  pending : ∃ row, (next app e s).world.store.getOrg x = some row ∧ row.status = .leavePending

/-- The org `x` waits for the approval of its removal, or its removal was approved. -/
def InHandshake (s : Store) (x : String) : Prop :=
  ∃ row, s.getOrg x = some row ∧
    (row.status = .leavePending ∨ row.status = .revoked ∧ row.removalAttestation.isSome)

/-- The poll is answered, with the confirmation once the removal is approved. -/
def PollAnswered (app : App) (x : String) (poll : Request) (now : ℚ) (w : World) : Prop :=
  ∃ resp, (removalStatus app poll x now w).1 = .ok resp ∧
    ∀ row att, w.store.getOrg x = some row → row.status = .revoked →
      row.removalAttestation = some att → resp.removalConfirm = some (att, row.removalSignature)

lemma active_of_removalStatus {poll : Request} {x : String} {now : ℚ} {w : World}
    {resp : RemovalStatus} (hdev : app.devHeaderAllowed = false) (hkey : poll.apiKey = none)
    (h : (removalStatus app poll x now w).1 = .ok resp) :
    ∃ row, w.store.getOrg x = some row ∧ row.status = .active := by
  have hspec : (removalStatus app poll x now).wp
      (fun r _ => ∀ resp, r = .ok resp → ∃ row, w.store.getOrg x = some row ∧
        row.status = .active) w := by
    unfold removalStatus
    refine wp_query_bind (wp_orRaise_bind (fun _ _ h => by cases h) fun org horg => ?_)
    refine wp_read_bind (wp_ensure_bind (fun _ _ h => by cases h) fun hauth => ?_)
    intro _ _
    rcases hauth with hcert | hauth
    · rw [extractVerifiedOrgId, devHeaderOrgId, hdev] at hcert
      obtain ⟨cert, -, hcert⟩ := Option.bind_eq_some_iff.mp hcert
      exact active_of_orgIdOfCert hcert
    · simp [hkey] at hauth
  exact hspec resp h

/-- From the leave request on, and with its removal approved or not, the org is refused whenever
it polls without an API key, whatever certificate it presents. -/
theorem removal_poll_refused {pre : List Event} {e : Event} {x : String}
    (hdev : app.devHeaderAllowed = false) (hfiled : FilesLeave app (after app pre) e x) :
    InHandshake (after app (pre ++ [e])).world.store x ∧
      ∀ mid poll now, poll.apiKey = none →
        InHandshake (after app (pre ++ e :: mid)).world.store x →
        ¬PollAnswered app x poll now (after app (pre ++ e :: mid)).world := by
  constructor
  · obtain ⟨row, hrow, hst⟩ := hfiled.pending
    rw [after_concat]
    exact ⟨row, hrow, Or.inl hst⟩
  · rintro mid poll now hkey ⟨row, hrow, hst⟩ ⟨resp, hok, -⟩
    obtain ⟨row', hrow', hactive⟩ := active_of_removalStatus hdev hkey hok
    rw [hrow] at hrow'
    obtain rfl := Option.some.inj hrow'
    rcases hst with hst | ⟨hst, -⟩
    · rw [hst] at hactive
      cases hactive
    · rw [hst] at hactive
      cases hactive

lemma filesLeave_sample :
    FilesLeave Sample.app (after Sample.app [Sample.enroll "x" [1] 11]) (Sample.leave "x" [1] 11)
      "x" where
  event := ⟨_, _, _, rfl, by decide +kernel⟩
  pending := by
    have hrow : ((next Sample.app (Sample.leave "x" [1] 11)
        (after Sample.app [Sample.enroll "x" [1] 11])).world.store.getOrg "x").map (·.status) =
        some .leavePending := by decide +kernel
    exact Option.map_eq_some_iff.mp hrow

theorem removal_poll_refused_approved :
    ¬PollAnswered Sample.app "x" (Sample.present (Sample.certOf "x" [1] 11)) 110
      (after Sample.app ([Sample.enroll "x" [1] 11] ++
        Sample.leave "x" [1] 11 :: [Sample.approve "x"])).world := by
  apply (removal_poll_refused rfl filesLeave_sample).2 _ _ _ rfl
  have hrow : ((after Sample.app ([Sample.enroll "x" [1] 11] ++
      Sample.leave "x" [1] 11 :: [Sample.approve "x"])).world.store.getOrg "x").map
      (fun r => (r.status, r.removalAttestation.isSome)) = some (.revoked, true) := by
    decide +kernel
  obtain ⟨row, hrow, hfields⟩ := Option.map_eq_some_iff.mp hrow
  obtain ⟨hst, hconf⟩ := Prod.mk.inj hfields
  exact ⟨row, hrow, Or.inr ⟨hst, hconf⟩⟩

/-- The certificate that filed the leave request cannot poll for the approval, nor for the
confirmation. -/
theorem leaving_org_refused :
    FilesLeave Sample.app (after Sample.app [Sample.enroll "x" [1] 11])
        (Sample.leave "x" [1] 11) "x" ∧
      ¬PollAnswered Sample.app "x" (Sample.present (Sample.certOf "x" [1] 11)) 90
        (after Sample.app [Sample.enroll "x" [1] 11, Sample.leave "x" [1] 11]).world ∧
      ¬PollAnswered Sample.app "x" (Sample.present (Sample.certOf "x" [1] 11)) 110
        (after Sample.app [Sample.enroll "x" [1] 11, Sample.leave "x" [1] 11,
          Sample.approve "x"]).world := by
  refine ⟨filesLeave_sample, fun h => ?_, fun h => ?_⟩
  · obtain ⟨resp, hresp, -⟩ := h
    have hrefused : (removalStatus Sample.app (Sample.present (Sample.certOf "x" [1] 11)) "x" 90
        (after Sample.app [Sample.enroll "x" [1] 11, Sample.leave "x" [1] 11]).world).1.isOk =
        false := by decide +kernel
    rw [hresp] at hrefused
    cases hrefused
  · obtain ⟨resp, hresp, -⟩ := h
    have hrefused : (removalStatus Sample.app (Sample.present (Sample.certOf "x" [1] 11)) "x" 110
        (after Sample.app [Sample.enroll "x" [1] 11, Sample.leave "x" [1] 11,
          Sample.approve "x"]).world).1.isOk = false := by decide +kernel
    rw [hresp] at hrefused
    cases hrefused

end Poll

end FlCoordinator
