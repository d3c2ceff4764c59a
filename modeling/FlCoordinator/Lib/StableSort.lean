import Mathlib.Data.List.Sort
import Mathlib.Tactic

/-!
# Sorting by a key

A stable sort by a key depends on the order of its input only among elements of equal keys.
-/

namespace Lib

section StableSort

variable {α κ : Type*} [LinearOrder κ] {key : α → κ} {l l' : List α}

/-- Largest key first, equal keys in their order. -/
def sortDescending (key : α → κ) (l : List α) : List α :=
  l.insertionSort (fun a b => key b ≤ key a)

lemma perm_sortDescending (key : α → κ) (l : List α) : (sortDescending key l).Perm l :=
  List.perm_insertionSort _ _

lemma sorted_sortDescending (key : α → κ) (l : List α) :
    (sortDescending key l).Pairwise (fun a b => key b ≤ key a) :=
  List.pairwise_insertionSort (fun a b => key b ≤ key a) l

lemma filter_sortDescending (q : κ) :
    (sortDescending key l).filter (fun a => key a = q) = l.filter (fun a => key a = q) := by
  have hsorted : (l.filter (fun a => key a = q)).Pairwise (fun a b => key b ≤ key a) := by
    apply List.pairwise_of_forall_mem_list
    intro a ha b hb
    have hqa := of_decide_eq_true (List.mem_filter.mp ha).2
    have hqb := of_decide_eq_true (List.mem_filter.mp hb).2
    exact (hqb.trans hqa.symm).le
  have hsub : (l.filter (fun a => key a = q)).Sublist (sortDescending key l) :=
    List.sublist_insertionSort hsorted List.filter_sublist
  have hfilter := hsub.filter (fun a => key a = q)
  rw [List.filter_filter] at hfilter
  simp only [Bool.and_self] at hfilter
  apply (hfilter.eq_of_length _).symm
  exact ((perm_sortDescending key l).filter _).length_eq.symm

lemma mem_iff_of_filter (h : ∀ q, l.filter (fun a => key a = q) = l'.filter (fun a => key a = q))
    (a : α) : a ∈ l ↔ a ∈ l' := by
  have ha := congrArg (a ∈ ·) (h (key a))
  simpa using ha

lemma eq_of_sorted_of_filter (hl : l.Pairwise (fun a b => key b ≤ key a))
    (hl' : l'.Pairwise (fun a b => key b ≤ key a))
    (h : ∀ q, l.filter (fun a => key a = q) = l'.filter (fun a => key a = q)) : l = l' := by
  induction l generalizing l' with
  | nil =>
    cases l' with
    | nil => rfl
    | cons b l' =>
      have hb := (mem_iff_of_filter h b).mpr List.mem_cons_self
      cases hb
  | cons a l ih =>
    cases l' with
    | nil =>
      have ha := (mem_iff_of_filter h a).mp List.mem_cons_self
      cases ha
    | cons b l' =>
      obtain ⟨ha, hsorted⟩ := List.pairwise_cons.mp hl
      obtain ⟨hb, hsorted'⟩ := List.pairwise_cons.mp hl'
      -- both heads have the largest key
      have hkey : key a = key b := by
        apply le_antisymm
        · rcases List.mem_cons.mp ((mem_iff_of_filter h a).mp List.mem_cons_self) with rfl | hmem
          · exact le_refl _
          · exact hb a hmem
        · rcases List.mem_cons.mp ((mem_iff_of_filter h b).mpr List.mem_cons_self) with rfl | hmem
          · exact le_refl _
          · exact ha b hmem
      have hhead := h (key a)
      rw [List.filter_cons_of_pos (by simp), List.filter_cons_of_pos (by simp [hkey])] at hhead
      obtain ⟨rfl, -⟩ := List.cons.inj hhead
      have htail : ∀ q, l.filter (fun a => key a = q) = l'.filter (fun a => key a = q) := by
        intro q
        have hq := h q
        by_cases hqa : key a = q
        · rw [List.filter_cons_of_pos (by simpa using hqa),
            List.filter_cons_of_pos (by simpa using hqa)] at hq
          exact (List.cons.inj hq).2
        · rwa [List.filter_cons_of_neg (by simpa using hqa),
            List.filter_cons_of_neg (by simpa using hqa)] at hq
      have hrest : l = l' := ih hsorted hsorted' htail
      rw [hrest]

/-- The sort looks at the order among elements of equal keys only. -/
theorem sortDescending_congr
    (h : ∀ q, l.filter (fun a => key a = q) = l'.filter (fun a => key a = q)) :
    sortDescending key l = sortDescending key l' := by
  apply eq_of_sorted_of_filter (sorted_sortDescending key l) (sorted_sortDescending key l')
  intro q
  rw [filter_sortDescending, filter_sortDescending, h]

/-! ### The order of the result -/

variable {β : Type*} {R : α → α → Prop}

/-- A larger key, or an equal one and `R`. -/
def Ahead (key : α → κ) (R : α → α → Prop) (a b : α) : Prop :=
  key b < key a ∨ key a = key b ∧ R a b

instance [DecidableRel R] : DecidableRel (Ahead key R) := fun a b =>
  inferInstanceAs (Decidable (key b < key a ∨ key a = key b ∧ R a b))

lemma Ahead.asymm (hR : ∀ a b, R a b → ¬R b a) {a b : α} (h : Ahead key R a b) :
    ¬Ahead key R b a := by
  rintro (hlt | ⟨heq, hba⟩)
  · rcases h with hlt' | ⟨heq', -⟩
    · exact lt_asymm hlt hlt'
    · exact hlt.ne heq'
  · rcases h with hlt' | ⟨-, hab⟩
    · exact hlt'.ne heq
    · exact hR a b hab hba

/-- An order of the input is kept among equal keys. -/
theorem pairwise_ahead (h : l.Pairwise R) : (sortDescending key l).Pairwise (Ahead key R) := by
  rw [List.pairwise_iff_forall_sublist]
  intro a b hab
  have hle : key b ≤ key a :=
    List.pairwise_iff_forall_sublist.mp (sorted_sortDescending key l) hab
  rcases lt_or_eq_of_le hle with hlt | heq
  · exact Or.inl hlt
  · have hkept := hab.filter (fun c => key c = key a)
    rw [filter_sortDescending] at hkept
    have hpair : [a, b].filter (fun c => key c = key a) = [a, b] := by simp [heq]
    rw [hpair] at hkept
    exact Or.inr ⟨heq.symm, List.pairwise_iff_forall_sublist.mp h (hkept.trans List.filter_sublist)⟩

lemma map_sortDescending (key' : β → κ) (f : α → β) (l : List α) :
    (sortDescending (fun a => key' (f a)) l).map f = sortDescending key' (l.map f) :=
  List.map_insertionSort _ _ f l fun _ _ _ _ => Iff.rfl

lemma sortDescending_sublist (front back : List α) (a : α) :
    (sortDescending key (front ++ back)).Sublist (sortDescending key (front ++ a :: back)) := by
  induction front with
  | nil => exact List.sublist_orderedInsert a (sortDescending key back)
  | cons b front ih =>
    have htrans : IsTrans α (fun x y => key y ≤ key x) := ⟨fun _ _ _ hxy hyz => hyz.trans hxy⟩
    exact ih.orderedInsert_sublist b (sorted_sortDescending key _)

lemma filter_ahead [DecidableRel R] (hR : ∀ a b, R a b → ¬R b a) {front back : List α} {c : α}
    (h : (front ++ c :: back).Pairwise (Ahead key R)) :
    (front ++ c :: back).filter (fun a => Ahead key R a c) = front := by
  obtain ⟨-, hback, hfront⟩ := List.pairwise_append.mp h
  have hself : ¬Ahead key R c c := fun hc => hc.asymm hR hc
  rw [List.filter_append, List.filter_cons_of_neg (by simpa using hself)]
  have hkeep : front.filter (fun a => Ahead key R a c) = front := by
    rw [List.filter_eq_self]
    intro a ha
    exact decide_eq_true (hfront a ha c List.mem_cons_self)
  have hdrop : back.filter (fun a => Ahead key R a c) = [] := by
    rw [List.filter_eq_nil_iff]
    intro a ha
    simpa using ((List.pairwise_cons.mp hback).1 a ha).asymm hR
  rw [hkeep, hdrop, List.append_nil]

end StableSort

end Lib
