import FlCoordinator.StoreSpec
import FlCoordinator.Trust

/-!
# What an evaluation changes

An evaluation touches the trust columns of one org and nothing else, and its verdict depends on
that org's row only.
-/

namespace FlCoordinator

open Lib

/-- A row without the columns that trust scoring writes. -/
def OrgRow.core (r : OrgRow) : OrgRow :=
  { r with trustScore := 0, lastSeenAt := none, lastAccuracy := none }

/-- The stores differ in trust columns only. -/
structure TrustOnly (s s' : Store) : Prop where
  orgs : ∀ x, (s'.getOrg x).map OrgRow.core = (s.getOrg x).map OrgRow.core
  rest : s' = { s with orgs := s'.orgs }

namespace TrustOnly

variable {s s' s'' : Store}

lemma refl (s : Store) : TrustOnly s s := ⟨fun _ => rfl, rfl⟩

lemma trans (h : TrustOnly s s') (h' : TrustOnly s' s'') : TrustOnly s s'' := by
  refine ⟨fun x => (h'.orgs x).trans (h.orgs x), ?_⟩
  rw [h'.rest, h.rest]

lemma column {α : Type} (h : TrustOnly s s') (f : OrgRow → α) (hf : ∀ r, f r.core = f r)
    (x : String) : (s'.getOrg x).map f = (s.getOrg x).map f := by
  have hcore := congrArg (Option.map f) (h.orgs x)
  rw [Option.map_map, Option.map_map] at hcore
  have hcomp : f ∘ OrgRow.core = f := funext hf
  rwa [hcomp] at hcore

lemma isSome (h : TrustOnly s s') (x : String) : (s'.getOrg x).isSome = (s.getOrg x).isSome := by
  have := congrArg Option.isSome (h.orgs x)
  simpa using this

lemma rounds (h : TrustOnly s s') : s'.rounds = s.rounds := by rw [h.rest]

lemma challenges (h : TrustOnly s s') : s'.challenges = s.challenges := by rw [h.rest]

lemma tokens (h : TrustOnly s s') : s'.tokens = s.tokens := by rw [h.rest]

lemma contributions (h : TrustOnly s s') : s'.contributions = s.contributions := by rw [h.rest]

lemma globalModels (h : TrustOnly s s') : s'.globalModels = s.globalModels := by rw [h.rest]

end TrustOnly

section Updates

variable {s : Store} {orgId : String}

lemma getOrg_updateOrgTrust (t now : ℚ) (x : String) :
    (s.updateOrgTrust orgId t now).getOrg x = if orgId = x then
      (s.getOrg x).map (fun r => { r with
        trustScore := Store.clampTrust t, lastSeenAt := some now }) else s.getOrg x :=
  Table.get?_update s.orgs orgId x
    (fun r => { r with trustScore := Store.clampTrust t, lastSeenAt := some now }) fun _ => rfl

lemma getOrg_setOrgLastAccuracy (a : ℚ) (x : String) :
    (s.setOrgLastAccuracy orgId a).getOrg x = if orgId = x then
      (s.getOrg x).map (fun r => { r with lastAccuracy := some a }) else s.getOrg x :=
  Table.get?_update s.orgs orgId x (fun r => { r with lastAccuracy := some a }) fun _ => rfl

lemma trustOnly_updateOrgTrust (t now : ℚ) : TrustOnly s (s.updateOrgTrust orgId t now) := by
  refine ⟨fun x => ?_, rfl⟩
  rw [getOrg_updateOrgTrust]
  split
  · rw [Option.map_map]
    rfl
  · rfl

lemma trustOnly_setOrgLastAccuracy (a : ℚ) : TrustOnly s (s.setOrgLastAccuracy orgId a) := by
  refine ⟨fun x => ?_, rfl⟩
  rw [getOrg_setOrgLastAccuracy]
  split
  · rw [Option.map_map]
    rfl
  · rfl

end Updates

namespace TrustManager

variable {tm : TrustManager} {s s' : Store} {orgId : String} {judgement : Judgement}
  {numExamples : ℤ} {now : ℚ}

lemma trustOnly_bump (delta : ℚ) : TrustOnly s (bump tm s orgId delta now).2 :=
  trustOnly_updateOrgTrust _ _

lemma getOrg_bump_ne (delta : ℚ) {x : String} (hx : orgId ≠ x) :
    (bump tm s orgId delta now).2.getOrg x = s.getOrg x := by
  rw [bump, getOrg_updateOrgTrust, if_neg hx]

lemma evaluate_frame (tm : TrustManager) (s : Store) (orgId : String) (judgement : Judgement)
    (numExamples : ℤ) (now : ℚ) :
    TrustOnly s (tm.evaluate s orgId judgement numExamples now).2 ∧
      ∀ x, orgId ≠ x → (tm.evaluate s orgId judgement numExamples now).2.getOrg x = s.getOrg x := by
  unfold evaluate
  simp only
  split
  · exact ⟨TrustOnly.refl s, fun _ _ => rfl⟩
  · split
    · exact ⟨trustOnly_bump _, fun x hx => getOrg_bump_ne _ hx⟩
    · split
      · exact ⟨trustOnly_bump _, fun x hx => getOrg_bump_ne _ hx⟩
      · exact ⟨trustOnly_bump _, fun x hx => getOrg_bump_ne _ hx⟩
    · split
      · exact ⟨trustOnly_bump _, fun x hx => getOrg_bump_ne _ hx⟩
      · split
        · exact ⟨trustOnly_bump _, fun x hx => getOrg_bump_ne _ hx⟩
        · split
          · exact ⟨trustOnly_bump _, fun x hx => getOrg_bump_ne _ hx⟩
          · refine ⟨(trustOnly_setOrgLastAccuracy _).trans (trustOnly_bump _), fun x hx => ?_⟩
            apply (getOrg_bump_ne _ hx).trans
            rw [getOrg_setOrgLastAccuracy, if_neg hx]

lemma clampTrust_idem (t : ℚ) : Store.clampTrust (Store.clampTrust t) = Store.clampTrust t := by
  unfold Store.clampTrust
  rw [min_eq_right, max_eq_right]
  · exact le_max_left _ _
  · exact max_le (by norm_num) (min_le_left _ _)

lemma bump_persists (now : ℚ) {row : OrgRow} (h : s.getOrg orgId = some row) (delta : ℚ) :
    ∃ row', (bump tm s orgId delta now).2.getOrg orgId = some row' ∧
      row'.trustScore = (bump tm s orgId delta now).1 := by
  refine ⟨{ row with
    trustScore := Store.clampTrust (bump tm s orgId delta now).1, lastSeenAt := some now }, ?_, ?_⟩
  · rw [bump, getOrg_updateOrgTrust, if_pos rfl, h]
    rfl
  · exact clampTrust_idem _

lemma le_clampTrust {a t : ℚ} (h1 : a ≤ 1) (h : a ≤ t) : a ≤ Store.clampTrust t :=
  le_max_of_le_right (le_min h1 h)

/-- The reward outweighs what is lost by rounding. -/
lemma le_clampTrust_reward (py : Python) {a t : ℚ} (h1 : a ≤ 1) (h : a ≤ t) :
    a ≤ Store.clampTrust (py.round (t + py.round (2 / 100))) := by
  have hreward := (py.round_bounds (q := 2 / 100) (by norm_num) (by norm_num)).1
  rcases le_total a 0 with h0 | h0
  · exact h0.trans (le_max_left _ _)
  · apply le_clampTrust h1
    have hsum := (py.round_bounds (q := a + 2 / 100 - 1 / 2 ^ 52) (by norm_num; linarith)
      (by norm_num; linarith)).1
    have hle : a + 2 / 100 - 1 / 2 ^ 52 ≤ t + py.round (2 / 100) := by linarith
    calc a ≤ py.round (a + 2 / 100 - 1 / 2 ^ 52) := by
          norm_num at hsum ⊢
          linarith
      _ ≤ py.round (t + py.round (2 / 100)) := py.round_mono hle

lemma accept_persists {row : OrgRow} (h : s.getOrg orgId = some row) (accuracy : Option ℚ)
    (hmin : tm.minTrust ≤ 1) (htrust : tm.minTrust ≤ currentTrust s orgId) :
    ∃ row', (accept tm s orgId numExamples accuracy now).2.getOrg orgId = some row' ∧
      row'.trustScore = (accept tm s orgId numExamples accuracy now).1.trust ∧
      tm.minTrust ≤ row'.trustScore := by
  obtain ⟨row', hrow, htr⟩ := bump_persists now h (tm.python.round (2 / 100))
  refine ⟨row', hrow, htr, ?_⟩
  rw [htr]
  exact le_clampTrust_reward tm.python hmin htrust

lemma evaluate_accepted (judgement : Judgement) (numExamples : ℤ) (now : ℚ) {row : OrgRow}
    (h : s.getOrg orgId = some row) (hmin : tm.minTrust ≤ 1)
    (hacc : (tm.evaluate s orgId judgement numExamples now).1.accepted = true) :
    ∃ row', (tm.evaluate s orgId judgement numExamples now).2.getOrg orgId = some row' ∧
      row'.trustScore = (tm.evaluate s orgId judgement numExamples now).1.trust ∧
      tm.minTrust ≤ row'.trustScore := by
  unfold evaluate at hacc ⊢
  simp only at hacc ⊢
  split
  · rename_i hlow
    rw [if_pos hlow] at hacc
    cases hacc
  · rename_i hlow
    rw [if_neg hlow] at hacc
    have htrust : tm.minTrust ≤ currentTrust s orgId := not_lt.mp hlow
    split
    · cases hacc
    · split
      · rename_i hval
        simp only [if_pos hval] at hacc
        cases hacc
      · exact accept_persists h none hmin htrust
    · rename_i accuracy
      split
      · exact accept_persists h none hmin htrust
      · rename_i hval
        simp only [if_neg hval] at hacc
        split
        · rename_i hacc'
          rw [if_pos hacc'] at hacc
          cases hacc
        · rename_i hacc'
          rw [if_neg hacc'] at hacc
          split
          · rename_i hdrop
            rw [hdrop] at hacc
            cases hacc
          · have hget : (s.setOrgLastAccuracy orgId accuracy).getOrg orgId =
                some { row with lastAccuracy := some accuracy } := by
              rw [getOrg_setOrgLastAccuracy, if_pos rfl, h]
              rfl
            apply accept_persists hget (some accuracy) hmin
            simpa [currentTrust, hget, h] using htrust

end TrustManager

end FlCoordinator
