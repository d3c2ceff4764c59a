import FlCoordinator.Lib.StableSort

/-!
# Two runs of one program

Fallible computations on related inputs that fail alike or give related results.
-/

namespace Lib

/-- The same failure, or related values. -/
inductive SameOutcome {ε α β : Type} (R : α → β → Prop) : Except ε α → Except ε β → Prop
  | ok {a : α} {b : β} (h : R a b) : SameOutcome R (.ok a) (.ok b)
  | error (e : ε) : SameOutcome R (.error e) (.error e)

namespace SameOutcome

variable {ε : Type} {α α' β β' : Type} {R : α → α' → Prop} {S : β → β' → Prop}

lemma refl {R : α → α → Prop} (h : ∀ a, R a a) (x : Except ε α) : SameOutcome R x x := by
  cases x with
  | ok a => exact ok (h a)
  | error e => exact error e

lemma eq_iff {x y : Except ε α} : SameOutcome (· = ·) x y ↔ x = y := by
  constructor
  · intro h
    cases h with
    | ok h => rw [h]
    | error e => rfl
  · rintro rfl
    exact refl (fun _ => rfl) x

lemma witnessed {x : Except ε α} {y : Except ε α'} (h : SameOutcome R x y) :
    SameOutcome (fun a b => R a b ∧ x = .ok a ∧ y = .ok b) x y := by
  cases h with
  | ok h => exact ok ⟨h, rfl, rfl⟩
  | error e => exact error e

lemma bind {x : Except ε α} {y : Except ε α'} {f : α → Except ε β} {g : α' → Except ε β'}
    (h : SameOutcome R x y) (hstep : ∀ a b, R a b → SameOutcome S (f a) (g b)) :
    SameOutcome S (x >>= f) (y >>= g) := by
  cases h with
  | ok h => exact hstep _ _ h
  | error e => exact error e

lemma bind_same {x : Except ε α} {f : α → Except ε β} {g : α → Except ε β'}
    (hstep : ∀ a, SameOutcome S (f a) (g a)) : SameOutcome S (x >>= f) (x >>= g) := by
  apply bind (refl (fun _ => rfl) x)
  rintro a _ rfl
  exact hstep a

lemma mapM {f : α → Except ε β} {g : α' → Except ε β'} {xs : List α} {ys : List α'}
    (h : List.Forall₂ R xs ys) (hstep : ∀ a b, R a b → SameOutcome S (f a) (g b)) :
    SameOutcome (List.Forall₂ S) (xs.mapM f) (ys.mapM g) := by
  induction h with
  | nil => exact ok .nil
  | cons hab _ ih =>
    rw [List.mapM_cons, List.mapM_cons]
    apply bind (hstep _ _ hab)
    intro c d hcd
    apply bind ih
    intro cs ds hrest
    exact ok (.cons hcd hrest)

end SameOutcome

section Sorting

variable {α β κ : Type*} [LinearOrder κ] {key : α → κ} {key' : β → κ} {R : α → β → Prop}

lemma forall₂_sortDescending (hkey : ∀ a b, R a b → key a = key' b) {l : List α} {l' : List β}
    (h : List.Forall₂ R l l') :
    List.Forall₂ R (sortDescending key l) (sortDescending key' l') := by
  have hinsert : ∀ {a b} {l : List α} {l' : List β}, R a b → List.Forall₂ R l l' →
      List.Forall₂ R (l.orderedInsert (fun a b => key b ≤ key a) a)
        (l'.orderedInsert (fun a b => key' b ≤ key' a) b) := by
    intro a b l l' hab h
    induction h with
    | nil => exact .cons hab .nil
    | @cons c d l l' hcd h ih =>
      rw [List.orderedInsert_cons, List.orderedInsert_cons, hkey a b hab, hkey c d hcd]
      split
      · exact .cons hab (.cons hcd h)
      · exact .cons hcd ih
  induction h with
  | nil => exact .nil
  | cons hab h ih => exact hinsert hab ih

end Sorting

end Lib
