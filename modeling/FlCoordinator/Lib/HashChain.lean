import Mathlib.Data.List.Forall2
import Mathlib.Data.List.Induction

/-!
# Hash chains

A chain is a list of records. Each stores a link, computed from the link before it and from the
record's own content.
-/

namespace Lib

section HashChain

variable {ρ κ : Type*} (link : ρ → κ) (hash : κ → ρ → κ)

/-- The records of a chain that starts at the link `k`, each with the link before it. -/
def entries : κ → List ρ → List (κ × ρ)
  | _, [] => []
  | k, r :: rs => (k, r) :: entries (link r) rs

/-- The link that a chain ends in. -/
def lastLink : κ → List ρ → κ
  | k, [] => k
  | _, r :: rs => lastLink (link r) rs

lemma lastLink_eq (k : κ) (rs : List ρ) : lastLink link k rs = (rs.getLast?.map link).getD k := by
  induction rs generalizing k with
  | nil => rfl
  | cons r rs ih =>
    rw [lastLink, ih, List.getLast?_cons]
    cases rs.getLast? <;> rfl

lemma entries_append (k : κ) (A B : List ρ) :
    entries link k (A ++ B) = entries link k A ++ entries link (lastLink link k A) B := by
  induction A generalizing k with
  | nil => rfl
  | cons a A ih => rw [List.cons_append, entries, ih, entries, lastLink, List.cons_append]

lemma mem_entries {k : κ} {A : List ρ} {p : κ × ρ} (h : p ∈ entries link k A) :
    p.1 ∈ k :: A.map link ∧ p.2 ∈ A := by
  induction A generalizing k with
  | nil => cases h
  | cons a A ih =>
    rcases List.mem_cons.mp h with rfl | h
    · exact ⟨List.mem_cons_self, List.mem_cons_self⟩
    · obtain ⟨hfst, hsnd⟩ := ih h
      exact ⟨List.mem_cons_of_mem _ hfst, List.mem_cons_of_mem _ hsnd⟩

/-- Two chains that end in one link are equal, if the hash determines the record and the link
before it among the records at equal positions. -/
theorem eq_of_lastLink {k l : κ} {A B : List ρ} {R : ρ → ρ → Prop} {S : κ → κ → Prop}
    (hA : ∀ p ∈ entries link k A, hash p.1 p.2 = link p.2)
    (hB : ∀ p ∈ entries link l B, hash p.1 p.2 = link p.2)
    (hR : List.Forall₂ R A B) (hkl : S k l) (hS : ∀ a ∈ A, ∀ b ∈ B, S (link a) (link b))
    (hinj : ∀ p ∈ entries link k A, ∀ q ∈ entries link l B, S p.1 q.1 → R p.2 q.2 →
      hash p.1 p.2 = hash q.1 q.2 → p.1 = q.1 ∧ (link p.2 = link q.2 → p.2 = q.2))
    (hlast : lastLink link k A = lastLink link l B) : k = l ∧ A = B := by
  induction hR generalizing k l with
  | nil => exact ⟨hlast, rfl⟩
  | @cons a b A B hab _ ih =>
    have hhead := List.mem_cons_self (a := (k, a)) (l := entries link (link a) A)
    have hhead' := List.mem_cons_self (a := (l, b)) (l := entries link (link b) B)
    obtain ⟨hlink, rfl⟩ := ih (fun p hp => hA p (List.mem_cons_of_mem _ hp))
      (fun p hp => hB p (List.mem_cons_of_mem _ hp))
      (hS a List.mem_cons_self b List.mem_cons_self)
      (fun a' ha' b' hb' => hS a' (List.mem_cons_of_mem _ ha') b' (List.mem_cons_of_mem _ hb'))
      (fun p hp q hq => hinj p (List.mem_cons_of_mem _ hp) q (List.mem_cons_of_mem _ hq)) hlast
    have hhash : hash k a = hash l b := (hA _ hhead).trans (hlink.trans (hB _ hhead').symm)
    obtain ⟨hk, hrow⟩ := hinj _ hhead _ hhead' hkl hab hhash
    exact ⟨hk, congrArg (· :: A) (hrow hlink)⟩

/-- A record that stores the link before it would make the record before it do so too, where equal
hashes have equal links before them. -/
theorem link_ne_of_mem {k : κ} {A : List ρ} (hA : ∀ p ∈ entries link k A, hash p.1 p.2 = link p.2)
    (hinj : ∀ p ∈ entries link k A, ∀ q ∈ entries link k A,
      hash p.1 p.2 = hash q.1 q.2 → p.1 = q.1)
    (hstart : ∀ a ∈ A, link a ≠ k) : ∀ p ∈ entries link k A, link p.2 ≠ p.1 := by
  induction A using List.reverseRecOn with
  | nil => exact fun p hp => (by cases hp)
  | append_singleton A a ih =>
    have hlast : (lastLink link k A, a) ∈ entries link k (A ++ [a]) := by
      rw [entries_append]
      exact List.mem_append_right _ List.mem_cons_self
    have hsub : ∀ p ∈ entries link k A, p ∈ entries link k (A ++ [a]) := by
      intro p hp
      rw [entries_append]
      exact List.mem_append_left _ hp
    have hbefore := ih (fun p hp => hA p (hsub p hp))
      (fun p hp q hq => hinj p (hsub p hp) q (hsub q hq))
      (fun b hb => hstart b (List.mem_append_left _ hb))
    intro p hp
    rw [entries_append, List.mem_append] at hp
    rcases hp with hp | hp
    · exact hbefore p hp
    · have hpa : p = (lastLink link k A, a) := List.mem_singleton.mp hp
      rw [hpa]
      intro heq
      rcases List.eq_nil_or_concat A with rfl | ⟨B, b, rfl⟩
      · exact hstart a List.mem_cons_self heq
      · have hb : (lastLink link k B, b) ∈ entries link k (B.concat b) := by
          rw [List.concat_eq_append, entries_append]
          exact List.mem_append_right _ List.mem_cons_self
        have hlink : lastLink link k (B.concat b) = link b := by rw [lastLink_eq]; simp
        have hhash : hash (lastLink link k B) b = hash (lastLink link k (B.concat b)) a :=
          calc hash (lastLink link k B) b = link b := hA _ (hsub _ hb)
            _ = lastLink link k (B.concat b) := hlink.symm
            _ = link a := heq.symm
            _ = hash (lastLink link k (B.concat b)) a := (hA _ hlast).symm
        have hsame := hinj _ (hsub _ hb) _ hlast hhash
        exact hbefore _ hb (hlink.symm.trans hsame.symm)

end HashChain

end Lib
