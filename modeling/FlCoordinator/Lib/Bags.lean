import Mathlib.Tactic

/-!
# Labelled bags

Bags of elements, each bag with a label, are concatenated and cut at a cap. This file says whose
elements are left.
-/

namespace Lib

section Bags

variable {ι α : Type*} {bags : List (ι × List α)} {n : ℕ}

/-- The elements of the bags in their order, each with the label of its bag. -/
def labelled (bags : List (ι × List α)) : List (ι × α) :=
  bags.flatMap (fun b => b.2.map (fun a => (b.1, a)))

@[simp] lemma labelled_nil : labelled ([] : List (ι × List α)) = [] := rfl

@[simp] lemma labelled_cons (b : ι × List α) (bags : List (ι × List α)) :
    labelled (b :: bags) = b.2.map (fun a => (b.1, a)) ++ labelled bags := by
  rw [labelled, List.flatMap_cons, labelled]

lemma map_snd_labelled (bags : List (ι × List α)) :
    (labelled bags).map Prod.snd = (bags.map Prod.snd).flatten := by
  induction bags with
  | nil => rfl
  | cons b bags ih =>
    rw [labelled_cons, List.map_append, ih, List.map_map, List.map_cons, List.flatten_cons]
    exact congrArg (· ++ _) (List.map_id _)

lemma mem_labelled {p : ι × α} : p ∈ labelled bags ↔ ∃ b ∈ bags, b.1 = p.1 ∧ p.2 ∈ b.2 := by
  obtain ⟨l, a⟩ := p
  simp only [labelled, List.mem_flatMap, List.mem_map, Prod.mk.injEq]
  constructor
  · rintro ⟨b, hb, c, hc, hl, rfl⟩
    exact ⟨b, hb, hl, hc⟩
  · rintro ⟨b, hb, hl, ha⟩
    exact ⟨b, hb, a, ha, hl, rfl⟩

/-- The labels that the first `n` elements have. -/
def leading (n : ℕ) (bags : List (ι × List α)) : List ι := ((labelled bags).take n).map Prod.fst

@[simp] lemma leading_nil : leading n ([] : List (ι × List α)) = [] := by
  rw [leading, labelled_nil, List.take_nil, List.map_nil]

lemma leading_cons (b : ι × List α) (bags : List (ι × List α)) :
    leading n (b :: bags) =
      List.replicate (min n b.2.length) b.1 ++ leading (n - b.2.length) bags := by
  rw [leading, labelled_cons, List.take_append, List.map_append, List.length_map, leading,
    ← List.map_take, List.map_map]
  congr 1
  rw [List.eq_replicate_iff]
  constructor
  · rw [List.length_map, List.length_take]
  · intro x hx
    obtain ⟨a, -, rfl⟩ := List.mem_map.mp hx
    rfl

lemma mem_leading {l : ι} (h : l ∈ leading n bags) : ∃ b ∈ bags, b.1 = l ∧ b.2 ≠ [] := by
  obtain ⟨p, hp, rfl⟩ := List.mem_map.mp h
  obtain ⟨b, hb, hl, ha⟩ := mem_labelled.mp (List.mem_of_mem_take hp)
  exact ⟨b, hb, hl, List.ne_nil_of_mem ha⟩

/-- Every bag keeps an element exactly when the bags before the last one do not fill the cap. -/
theorem forall_mem_leading_iff (hsome : bags ≠ []) (hne : ∀ b ∈ bags, b.2 ≠ [])
    (hdistinct : (bags.map Prod.fst).Nodup) :
    (∀ b ∈ bags, b.1 ∈ leading n bags) ↔ (bags.map (fun b => b.2.length)).dropLast.sum < n := by
  induction bags generalizing n with
  | nil => exact absurd rfl hsome
  | cons b bags ih =>
    obtain ⟨hb, hrest⟩ := List.forall_mem_cons.mp hne
    obtain ⟨hnew, htail⟩ := List.nodup_cons.mp hdistinct
    have hpos : 0 < b.2.length := List.length_pos_iff.mpr hb
    rw [List.forall_mem_cons]
    cases bags with
    | nil =>
      rw [leading_cons, leading_nil, List.append_nil, List.mem_replicate]
      simp only [List.map_cons, List.map_nil, List.dropLast_singleton, List.sum_nil,
        List.not_mem_nil, false_implies, implies_true, and_true]
      omega
    | cons c bags =>
      -- the first bag gives none of the labels of the others
      have hothers : (∀ d ∈ c :: bags, d.1 ∈ leading n (b :: c :: bags)) ↔
          ∀ d ∈ c :: bags, d.1 ∈ leading (n - b.2.length) (c :: bags) := by
        apply forall₂_congr
        intro d hd
        have hdb : d.1 ≠ b.1 := fun heq => hnew (heq ▸ List.mem_map_of_mem hd)
        rw [leading_cons, List.mem_append, List.mem_replicate]
        constructor
        · rintro (⟨-, heq⟩ | hmem)
          · exact absurd heq hdb
          · exact hmem
        · exact Or.inr
      have hsum : ((b :: c :: bags).map (fun b => b.2.length)).dropLast.sum =
          b.2.length + ((c :: bags).map (fun b => b.2.length)).dropLast.sum := by
        rw [List.map_cons, List.map_cons, List.dropLast_cons_cons, List.sum_cons]
      rw [hothers, ih (by simp) hrest htail, hsum]
      constructor
      · rintro ⟨-, h⟩
        omega
      · intro h
        refine ⟨?_, by omega⟩
        rw [leading_cons, List.mem_append, List.mem_replicate]
        left
        exact ⟨by omega, rfl⟩

lemma leading_append (front back : List (ι × List α)) :
    leading n (front ++ back) =
      leading n front ++ leading (n - (front.map (fun b => b.2.length)).sum) back := by
  induction front generalizing n with
  | nil => simp
  | cons b front ih =>
    rw [List.cons_append, leading_cons, leading_cons, ih, List.append_assoc, List.map_cons,
      List.sum_cons, Nat.sub_sub]

/-- How many elements of one bag are left: its size, or what the bags before it leave room for. -/
theorem count_leading [DecidableEq ι] {front back : List (ι × List α)} {b : ι × List α}
    (hfront : b.1 ∉ front.map Prod.fst) (hback : b.1 ∉ back.map Prod.fst) :
    (leading n (front ++ b :: back)).count b.1 =
      min b.2.length (n - (front.map (fun c => c.2.length)).sum) := by
  have hnone : ∀ {m : ℕ} {cs : List (ι × List α)}, b.1 ∉ cs.map Prod.fst →
      (leading m cs).count b.1 = 0 := by
    intro m cs hcs
    rw [List.count_eq_zero]
    intro hmem
    obtain ⟨c, hc, hl, -⟩ := mem_leading hmem
    exact hcs (List.mem_map.mpr ⟨c, hc, hl⟩)
  rw [leading_append, leading_cons, List.count_append, List.count_append, hnone hfront,
    hnone hback, List.count_replicate_self]
  omega

end Bags

lemma sum_filter_le {α : Type*} {p q : α → Bool} {f g : α → ℕ} {l : List α}
    (hpq : ∀ a ∈ l, p a = true → q a = true) (hfg : ∀ a ∈ l, p a = true → f a ≤ g a) :
    ((l.filter p).map f).sum ≤ ((l.filter q).map g).sum := by
  induction l with
  | nil => simp
  | cons a l ih =>
    obtain ⟨hpa, hpq⟩ := List.forall_mem_cons.mp hpq
    obtain ⟨hfa, hfg⟩ := List.forall_mem_cons.mp hfg
    have hrest := ih hpq hfg
    by_cases hp : p a = true
    · rw [List.filter_cons_of_pos hp, List.filter_cons_of_pos (hpa hp), List.map_cons,
        List.map_cons, List.sum_cons, List.sum_cons]
      exact Nat.add_le_add (hfa hp) hrest
    · rw [List.filter_cons_of_neg hp]
      by_cases hq : q a = true
      · rw [List.filter_cons_of_pos hq, List.map_cons, List.sum_cons]
        omega
      · rw [List.filter_cons_of_neg hq]
        exact hrest

end Lib
