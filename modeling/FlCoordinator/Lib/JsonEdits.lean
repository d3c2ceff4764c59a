import FlCoordinator.Lib.JsonRoundTrip
import FlCoordinator.Lib.TwoRuns

/-!
# Changes inside JSON values

What an assignment or a change under a key does to the rest of a dict, and to a program that reads
it.
-/

namespace Lib

namespace Json

variable {j k : String} {v w : Json} {fs : List (String × Json)}

lemma setField_of_field? (h : field? k fs = some v) : setField k v fs = fs := by
  induction fs with
  | nil => cases h
  | cons p fs ih =>
    rw [setField]
    by_cases hp : p.1 = k
    · rw [field?, List.find?_cons_of_pos (by simpa using hp)] at h
      rw [if_pos hp, ← Option.some.inj h, ← hp]
    · rw [field?, List.find?_cons_of_neg (by simpa using hp)] at h
      rw [if_neg hp, ih h]

lemma setField_comm {u : Json} (hjk : j ≠ k) (hk : field? k fs = some u) :
    setField j w (setField k v fs) = setField k v (setField j w fs) := by
  induction fs with
  | nil => cases hk
  | cons p fs ih =>
    by_cases hp : p.1 = k
    · have hj : p.1 ≠ j := by
        rw [hp]
        exact hjk.symm
      simp only [setField, if_pos hp, if_neg hj, if_neg hjk.symm]
    · rw [field?, List.find?_cons_of_neg (by simpa using hp)] at hk
      by_cases hj : p.1 = j
      · simp only [setField, if_neg hp, if_pos hj, if_neg hjk]
      · simp only [setField, if_neg hp, if_neg hj, ih hk]

lemma bind_get_modifyKey {α : Type} {R : α → α → Prop} {f : Json → Except PyErr Json}
    {g : Json → Except PyErr α} (hR : ∀ a, R a a)
    (hf : ∀ u u', f u = .ok u' → SameOutcome R (g u) (g u')) (d : Json)
    (h : modifyKey k f v = .ok w) : SameOutcome R (v.get k d >>= g) (w.get k d >>= g) := by
  cases v with
  | obj fs =>
    cases hk : field? k fs with
    | none =>
      simp only [modifyKey, hk] at h
      obtain ⟨u, -, h⟩ := bind_eq_ok.mp h
      rw [← Except.ok.inj h]
      exact SameOutcome.refl hR _
    | some u =>
      obtain ⟨u', hu', rfl⟩ := modifyKey_eq_ok hk h
      have hread : (obj fs).get k d = .ok u := by
        rw [get, hk]
        rfl
      have hread' : (obj (setField k u' fs)).get k d = .ok u' := by
        rw [get, field?_setField_self]
        rfl
      rw [hread, hread']
      exact hf u u' hu'
  | _ => cases h

lemma plain_modifyKey {f : Json → Except PyErr Json}
    (hf : ∀ u u', f u = .ok u' → Plain u → Plain u') (hv : Plain v)
    (h : modifyKey k f v = .ok w) : Plain w := by
  cases v with
  | obj fs =>
    cases hk : field? k fs with
    | none =>
      simp only [modifyKey, hk] at h
      obtain ⟨u, -, h⟩ := bind_eq_ok.mp h
      rwa [← Except.ok.inj h]
    | some u =>
      obtain ⟨u', hu', rfl⟩ := modifyKey_eq_ok hk h
      have hu : Plain u := by
        obtain ⟨p, hp, rfl⟩ := Option.map_eq_some_iff.mp hk
        exact (plain_obj.mp hv).2 p (List.mem_of_find?_eq_some hp)
      exact plain_setField (hf u u' hu' hu) hv
  | _ => cases h

lemma item_eq_ok (h : v.item k = .ok w) : ∃ fs, v = .obj fs ∧ field? k fs = some w := by
  cases v with
  | obj fs =>
    refine ⟨fs, rfl, ?_⟩
    cases hk : field? k fs with
    | none => simp [item, hk] at h
    | some u =>
      simp only [item, hk] at h
      rw [Except.ok.inj h]
  | _ => cases h

lemma get_modifyKey_ne {f : Json → Except PyErr Json} (h : modifyKey k f v = .ok w) (hjk : j ≠ k)
    (d : Json) : w.get j d = v.get j d := by
  cases v with
  | obj fs =>
    cases hk : field? k fs with
    | none =>
      simp only [modifyKey, hk] at h
      obtain ⟨u, -, h⟩ := bind_eq_ok.mp h
      rw [← Except.ok.inj h]
    | some u =>
      obtain ⟨u', -, rfl⟩ := modifyKey_eq_ok hk h
      rw [get, get, field?_setField_ne _ _ hjk]
  | _ => cases h

lemma truthy_modifyKey {f : Json → Except PyErr Json} (h : modifyKey k f v = .ok w) :
    w.truthy = v.truthy := by
  cases v with
  | obj fs =>
    cases hk : field? k fs with
    | none =>
      simp only [modifyKey, hk] at h
      obtain ⟨u, -, h⟩ := bind_eq_ok.mp h
      rw [← Except.ok.inj h]
    | some u =>
      obtain ⟨u', -, rfl⟩ := modifyKey_eq_ok hk h
      cases fs with
      | nil => cases hk
      | cons p fs =>
        rw [setField]
        split <;> rfl
  | _ => cases h

end Json

end Lib
