import FlCoordinator.Contributions

/-!
# Which rounds an org finds

An org is invited to a round by the announcement, which lists the orgs that were active when the
round was started. The list of active rounds is computed from the stored targets instead.
-/

namespace FlCoordinator

open Lib Handler

section Discovery

variable {app : App}

def RunningRound (s : Store) (k : ℤ) : Prop := ∃ r, s.getRound k = some r ∧ r.status = .running

/-- The targets leave nobody out, or name the org. -/
def Targeted (targets : Option (List String)) (x : String) : Prop :=
  ∀ t ts, targets = some (t :: ts) → x ∈ t :: ts

/-- The round was opened while the org was active. -/
def ActiveAtStart (app : App) (es : List Event) (k : ℤ) (x : String) : Prop :=
  ∃ before user body env between, es = before ++ .startRound user body env :: between ∧
    (after app before).world.store.getRound k = none ∧
    ((after app (before ++ [.startRound user body env])).world.store.getRound k).isSome ∧
    ∃ row, (after app before).world.store.getOrg x = some row ∧ row.status = .active

/-- The round is in the list that the org gets at `GET /rounds/active`. -/
def Finds (app : App) (req : Request) (authAt now : ℚ) (w : World) (k : ℤ) : Prop :=
  ∃ rs, (listActiveRoundsForOrg app req authAt now w).1 = .ok rs ∧ ∃ a ∈ rs, a.roundId = k

lemma targeted_decide (targets : Option (List String)) (x : String) :
    (match targets with
      | some (t :: ts) => decide (x ∈ t :: ts)
      | _ => true) = true ↔ Targeted targets x := by
  rcases targets with _ | _ | ⟨t, ts⟩
  · simp [Targeted]
  · simp [Targeted]
  · rw [decide_eq_true_eq]
    constructor
    · intro h t' ts' heq
      cases heq
      exact h
    · intro h
      exact h t ts rfl

lemma finds_iff {req : Request} {authAt now : ℚ} {w : World} {k : ℤ} {x : String}
    (hauth : getAuthenticatedOrgId app req w authAt = .ok x) :
    Finds app req authAt now w k ↔ ∃ r, w.store.getRound k = some r ∧ r.status = .running ∧
      Targeted r.params.targetOrgIds x := by
  have hspec : (listActiveRoundsForOrg app req authAt now).wp (fun res _ => ∃ rs, res = .ok rs ∧
      ∀ k, (∃ a ∈ rs, a.roundId = k) ↔ ∃ r, w.store.getRound k = some r ∧ r.status = .running ∧
        Targeted r.params.targetOrgIds x) w := by
    unfold listActiveRoundsForOrg
    apply wp_authenticate_ok hauth
    apply wp_query_bind
    refine ⟨_, rfl, fun k => ?_⟩
    have hrow : ∀ r : RoundRow, r ∈ w.store.listRoundsByStatus .running ↔
        w.store.getRound r.roundId = some r ∧ r.status = .running := by
      intro r
      rw [Store.listRoundsByStatus, (List.perm_insertionSort _ _).mem_iff, List.mem_filter,
        decide_eq_true_eq]
      exact and_congr_left fun _ => ⟨Table.get?_of_mem, Table.get?_mem⟩
    simp only [List.mem_map, List.mem_filter, hrow]
    constructor
    · rintro ⟨-, ⟨r, ⟨⟨hr, hrun⟩, htarget⟩, rfl⟩, rfl⟩
      exact ⟨r, hr, hrun, (targeted_decide _ x).mp htarget⟩
    · rintro ⟨r, hr, hrun, htarget⟩
      have hk : r.roundId = k := Table.get?_key hr
      subst hk
      exact ⟨_, ⟨r, ⟨⟨hr, hrun⟩, (targeted_decide _ x).mpr htarget⟩, rfl⟩, rfl⟩
  obtain ⟨rs, hrs, hfound⟩ := hspec
  rw [← hfound k]
  constructor
  · rintro ⟨rs', hrs', ha⟩
    rw [hrs] at hrs'
    cases hrs'
    exact ha
  · intro ha
    exact ⟨rs, hrs, ha⟩

/-- Where the coordinator has its key, an org finds exactly the running rounds that it is invited
to, but for those that were opened while it was not active and do not leave it out. -/
theorem finds_iff_invited {es : List Event} (hkey : app.coordPriv.isSome) {req : Request}
    {authAt now : ℚ} {x : String} (k : ℤ)
    (hauth : getAuthenticatedOrgId app req (after app es).world authAt = .ok x) :
    (Finds app req authAt now (after app es).world k ↔
      RunningRound (after app es).world.store k ∧ InvitedTo (after app es).world.store k x) ↔
    ∀ r, (after app es).world.store.getRound k = some r → r.status = .running →
      Targeted r.params.targetOrgIds x → ActiveAtStart app es k x := by
  rw [finds_iff hauth]
  constructor
  · intro h r hr hrun htarget
    obtain ⟨-, hinvited⟩ := h.mp ⟨r, hr, hrun, htarget⟩
    obtain ⟨before, user, body, env, between, hes, hfresh, hsome, -, hactive, -⟩ :=
      (invitedTo_iff_eligible hr).mp hinvited
    exact ⟨before, user, body, env, between, hes, hfresh, hsome, hactive⟩
  · intro h
    constructor
    · rintro ⟨r, hr, hrun, htarget⟩
      obtain ⟨before, user, body, env, between, rfl, hfresh, hsome, hactive⟩ := h r hr hrun htarget
      obtain ⟨username, hopen⟩ := opening_of_start hfresh hsome hr
      have hparams : r.params = body.params app.observationHours := congrArg Prod.fst hopen
      rw [hparams] at htarget
      exact ⟨⟨r, hr, hrun⟩, (invitedTo_iff_eligible hr).mpr
        ⟨before, user, body, env, between, rfl, hfresh, hsome, hkey, hactive, htarget⟩⟩
    · rintro ⟨⟨r, hr, hrun⟩, hinvited⟩
      obtain ⟨before, user, body, env, between, rfl, hfresh, hsome, -, -, htarget⟩ :=
        (invitedTo_iff_eligible hr).mp hinvited
      obtain ⟨username, hopen⟩ := opening_of_start hfresh hsome hr
      have hparams : r.params = body.params app.observationHours := congrArg Prod.fst hopen
      refine ⟨r, hr, hrun, ?_⟩
      rw [hparams]
      exact htarget

/-- Org y is enrolled while a round for all orgs is running. -/
def lateEnrollment : List Event :=
  [Sample.enroll "x" [1] 11, Sample.start none, Sample.enroll "y" [2] 12]

lemma authenticated_late :
    getAuthenticatedOrgId Sample.app (Sample.present (Sample.certOf "y" [2] 12))
      (after Sample.app lateEnrollment).world 80 = .ok "y" := by
  decide +kernel

theorem finds_iff_invited_lateEnrollment :
    (Finds Sample.app (Sample.present (Sample.certOf "y" [2] 12)) 80 80
        (after Sample.app lateEnrollment).world 1 ↔
      RunningRound (after Sample.app lateEnrollment).world.store 1 ∧
        InvitedTo (after Sample.app lateEnrollment).world.store 1 "y") ↔
    ∀ r, (after Sample.app lateEnrollment).world.store.getRound 1 = some r →
      r.status = .running → Targeted r.params.targetOrgIds "y" →
      ActiveAtStart Sample.app lateEnrollment 1 "y" :=
  finds_iff_invited rfl 1 authenticated_late

/-- Org y finds the round, and the announcement does not list it. -/
theorem late_org_finds_round :
    Finds Sample.app (Sample.present (Sample.certOf "y" [2] 12)) 80 80
        (after Sample.app lateEnrollment).world 1 ∧
      ¬InvitedTo (after Sample.app lateEnrollment).world.store 1 "y" := by
  constructor
  · have hrow : ((after Sample.app lateEnrollment).world.store.getRound 1).map
        (fun r => (r.status, r.params.targetOrgIds)) = some (.running, none) := by decide +kernel
    obtain ⟨r, hr, hdata⟩ := Option.map_eq_some_iff.mp hrow
    obtain ⟨hrun, htargets⟩ := Prod.mk.inj hdata
    rw [finds_iff authenticated_late]
    refine ⟨r, hr, hrun, fun t ts h => ?_⟩
    rw [htargets] at h
    cases h
  · rintro ⟨r, att, ids, hr, hatt, hids, hmem⟩
    have hann : ((after Sample.app lateEnrollment).world.store.getRound 1).map
        (fun r => r.announceAttestation.map (readOrgs "invited_orgs")) =
        some (some (some ["x"])) := by decide +kernel
    rw [hr, Option.map_some, hatt, Option.map_some, hids] at hann
    simp only [Option.some.injEq] at hann
    rw [hann] at hmem
    exact absurd hmem (by decide)

end Discovery

end FlCoordinator
