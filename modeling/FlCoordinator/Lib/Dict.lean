import Mathlib.Tactic

/-!
# Dicts

A Python `dict` as the list of its items in the order in which their keys were first set.
-/

namespace Lib

section Dict

variable {κ ν : Type*} [DecidableEq κ]

/-- `d[k] = v`: an existing key keeps its place. -/
def setItem (k : κ) (v : ν) : List (κ × ν) → List (κ × ν)
  | [] => [(k, v)]
  | p :: d => if p.1 = k then (k, v) :: d else p :: setItem k v d

/-- `d.get(k)`. -/
def getItem (k : κ) (d : List (κ × ν)) : Option ν := (d.find? (fun p => p.1 = k)).map (·.2)

@[simp] lemma getItem_nil (k : κ) : getItem k ([] : List (κ × ν)) = none := rfl

lemma getItem_cons (k : κ) (p : κ × ν) (d : List (κ × ν)) :
    getItem k (p :: d) = if p.1 = k then some p.2 else getItem k d := by
  by_cases h : p.1 = k <;> simp [getItem, h]

lemma getItem_setItem (j k : κ) (v : ν) (d : List (κ × ν)) :
    getItem j (setItem k v d) = if k = j then some v else getItem j d := by
  induction d with
  | nil => rw [setItem, getItem_cons]
  | cons p d ih =>
    rw [setItem]
    by_cases hp : p.1 = k
    · rw [if_pos hp, getItem_cons, getItem_cons, hp]
      split <;> rfl
    · rw [if_neg hp, getItem_cons, getItem_cons, ih]
      by_cases hj : p.1 = j
      · have hkj : k ≠ j := fun h => hp (hj.trans h.symm)
        rw [if_pos hj, if_pos hj, if_neg hkj]
      · rw [if_neg hj, if_neg hj]

lemma setItem_setItem (k : κ) (v w : ν) (d : List (κ × ν)) :
    setItem k v (setItem k w d) = setItem k v d := by
  induction d with
  | nil => simp [setItem]
  | cons p d ih =>
    by_cases hp : p.1 = k
    · simp [setItem, hp]
    · simp [setItem, hp, ih]

lemma mem_setItem {k : κ} {v : ν} {d : List (κ × ν)} {p : κ × ν} (h : p ∈ setItem k v d) :
    p = (k, v) ∨ p ∈ d := by
  induction d with
  | nil => simpa [setItem] using h
  | cons q d ih =>
    rw [setItem] at h
    split at h
    · exact (List.mem_cons.mp h).imp_right (List.mem_cons_of_mem q)
    · rcases List.mem_cons.mp h with rfl | h
      · exact Or.inr List.mem_cons_self
      · exact (ih h).imp_right (List.mem_cons_of_mem q)

lemma mem_keys_setItem {j k : κ} {v : ν} {d : List (κ × ν)} :
    j ∈ (setItem k v d).map Prod.fst ↔ j = k ∨ j ∈ d.map Prod.fst := by
  induction d with
  | nil => simp [setItem]
  | cons p d ih =>
    rw [setItem]
    by_cases hp : p.1 = k
    · simp [hp]
    · rw [if_neg hp, List.map_cons, List.mem_cons, ih, List.map_cons, List.mem_cons]
      exact or_left_comm

lemma nodup_keys_setItem {k : κ} {v : ν} {d : List (κ × ν)} (h : (d.map Prod.fst).Nodup) :
    ((setItem k v d).map Prod.fst).Nodup := by
  induction d with
  | nil => simp [setItem]
  | cons p d ih =>
    rw [List.map_cons, List.nodup_cons] at h
    rw [setItem]
    by_cases hp : p.1 = k
    · rw [if_pos hp, List.map_cons, List.nodup_cons, ← hp]
      exact h
    · rw [if_neg hp, List.map_cons, List.nodup_cons, mem_keys_setItem]
      refine ⟨?_, ih h.2⟩
      rintro (heq | hmem)
      · exact hp heq
      · exact h.1 hmem

lemma getItem_of_mem {d : List (κ × ν)} {p : κ × ν} (hnodup : (d.map Prod.fst).Nodup) (hp : p ∈ d) :
    getItem p.1 d = some p.2 := by
  induction d with
  | nil => cases hp
  | cons q d ih =>
    rw [List.map_cons, List.nodup_cons] at hnodup
    rw [getItem_cons]
    rcases List.mem_cons.mp hp with rfl | hmem
    · exact if_pos rfl
    · have hne : q.1 ≠ p.1 := fun h => hnodup.1 (h ▸ List.mem_map_of_mem hmem)
      rw [if_neg hne]
      exact ih hnodup.2 hmem

lemma mem_of_getItem {d : List (κ × ν)} {k : κ} {v : ν} (h : getItem k d = some v) :
    (k, v) ∈ d := by
  induction d with
  | nil => cases h
  | cons q d ih =>
    rw [getItem_cons] at h
    by_cases hq : q.1 = k
    · rw [if_pos hq] at h
      cases h
      exact hq ▸ List.mem_cons_self
    · rw [if_neg hq] at h
      exact List.mem_cons_of_mem q (ih h)

/-! ### Dicts built one item at a time -/

/-- The dict after setting these items, one after the other. -/
def setItems (ps : List (κ × ν)) (d : List (κ × ν)) : List (κ × ν) :=
  ps.foldl (fun d p => setItem p.1 p.2 d) d

@[simp] lemma setItems_nil (d : List (κ × ν)) : setItems [] d = d := rfl

@[simp] lemma setItems_cons (p : κ × ν) (ps d : List (κ × ν)) :
    setItems (p :: ps) d = setItems ps (setItem p.1 p.2 d) := rfl

/-- The last value that `ps` gives for a key. -/
def lastValue (k : κ) (ps : List (κ × ν)) : Option ν :=
  ((ps.filter (fun p => p.1 = k)).getLast?).map Prod.snd

lemma getItem_setItems (k : κ) (ps d : List (κ × ν)) :
    getItem k (setItems ps d) = (lastValue k ps).or (getItem k d) := by
  induction ps generalizing d with
  | nil => rfl
  | cons p ps ih =>
    rw [setItems_cons, ih, getItem_setItem, lastValue, lastValue]
    by_cases hp : p.1 = k
    · rw [if_pos hp, List.filter_cons_of_pos (by simpa using hp), List.getLast?_cons]
      cases (ps.filter (fun p => p.1 = k)).getLast? <;> rfl
    · rw [if_neg hp, List.filter_cons_of_neg (by simpa using hp)]

lemma mem_keys_setItems {k : κ} {ps d : List (κ × ν)} :
    k ∈ (setItems ps d).map Prod.fst ↔ k ∈ ps.map Prod.fst ∨ k ∈ d.map Prod.fst := by
  induction ps generalizing d with
  | nil => simp
  | cons p ps ih =>
    rw [setItems_cons, ih, mem_keys_setItem, List.map_cons, List.mem_cons]
    tauto

lemma nodup_keys_setItems {ps d : List (κ × ν)} (h : (d.map Prod.fst).Nodup) :
    ((setItems ps d).map Prod.fst).Nodup := by
  induction ps generalizing d with
  | nil => exact h
  | cons p ps ih => exact ih (nodup_keys_setItem h)

end Dict

end Lib
