import Mathlib.Tactic

/-!
# Changes behind ordered conditions

A record is used where all of its conditions hold. A conditional update decides that, and where it
finds no record, a second read says which condition fails first.
-/

namespace Lib

variable {σ : Type}

/-! ### Conditions in order -/

/-- The reason `reason` belongs to the first condition that fails. -/
def FirstFails (conditions : List (Bool × String)) (reason : String) : Prop :=
  ∃ before after, conditions = before ++ (false, reason) :: after ∧ ∀ c ∈ before, c.1 = true

/-- The reason for the first condition that fails. -/
def firstFailing (conditions : List (Bool × String)) : Option String :=
  (conditions.find? fun c => !c.1).map Prod.snd

lemma firstFailing_cons {holds : Bool} {reason : String} {conditions : List (Bool × String)} :
    firstFailing ((holds, reason) :: conditions) =
      if holds then firstFailing conditions else some reason := by
  cases holds <;> simp [firstFailing]

lemma firstFailing_eq_none {conditions : List (Bool × String)} :
    firstFailing conditions = none ↔ ∀ c ∈ conditions, c.1 = true := by
  simp [firstFailing]

lemma firstFailing_eq_some {conditions : List (Bool × String)} {reason : String} :
    firstFailing conditions = some reason ↔ FirstFails conditions reason := by
  rw [firstFailing, Option.map_eq_some_iff]
  constructor
  · rintro ⟨⟨holds, msg⟩, hfind, rfl⟩
    obtain ⟨hfails, before, after, hsplit, hbefore⟩ := List.find?_eq_some_iff_append.mp hfind
    have hfalse : holds = false := by simpa using hfails
    rw [hfalse] at hsplit
    exact ⟨before, after, hsplit, fun c hc => by simpa using hbefore c hc⟩
  · rintro ⟨before, after, hsplit, hbefore⟩
    refine ⟨(false, reason), ?_, rfl⟩
    apply List.find?_eq_some_iff_append.mpr
    exact ⟨rfl, before, after, hsplit, fun c hc => by simp [hbefore c hc]⟩

/-- The outcome `out` of using the record `found` in the state `s`: it succeeds where all conditions
on the record hold, and changes what `spend` says. Else nothing changes, and the reason is the
first that applies, never `fallback`. -/
structure SingleUse {ρ : Type} (found : Option ρ) (unknown : String)
    (conditions : ρ → List (Bool × String)) (fallback : String) (spend : ρ → σ) (s : σ)
    (out : Option String × σ) : Prop where
  granted : out.1 = none ↔ ∃ row, found = some row ∧ ∀ c ∈ conditions row, c.1 = true
  spends : out.1 = none → ∀ row, found = some row → out.2 = spend row
  refused : out.1 ≠ none → out.2 = s
  reason : ∀ msg, out.1 = some msg ↔
    found = none ∧ msg = unknown ∨ ∃ row, found = some row ∧ FirstFails (conditions row) msg
  conclusive : out.1 ≠ some fallback

section Outcomes

variable {ρ : Type} {unknown fallback reason : String} {conditions : ρ → List (Bool × String)}
  {spend : ρ → σ} {s : σ} {row : ρ}

lemma singleUse_unknown (hunknown : unknown ≠ fallback) :
    SingleUse none unknown conditions fallback spend s (some unknown, s) where
  granted := by simp
  spends := by simp
  refused := fun _ => rfl
  reason := by simp [eq_comm]
  conclusive := by simpa using hunknown

lemma singleUse_granted (hfirst : firstFailing (conditions row) = none) :
    SingleUse (some row) unknown conditions fallback spend s (none, spend row) where
  granted := ⟨fun _ => ⟨row, rfl, firstFailing_eq_none.mp hfirst⟩, fun _ => rfl⟩
  spends := by
    intro _ r hr
    rw [Option.some.inj hr]
  refused := fun h => absurd rfl h
  reason := by
    intro msg
    constructor
    · intro h
      cases h
    · rintro (⟨h, -⟩ | ⟨r, hr, hfails⟩)
      · cases h
      · rw [← Option.some.inj hr, ← firstFailing_eq_some, hfirst] at hfails
        cases hfails
  conclusive := by
    intro h
    cases h

lemma singleUse_refused (hfirst : firstFailing (conditions row) = some reason)
    (hreason : reason ≠ fallback) :
    SingleUse (some row) unknown conditions fallback spend s (some reason, s) where
  granted := by
    constructor
    · intro h
      cases h
    · rintro ⟨r, hr, hall⟩
      rw [← Option.some.inj hr, ← firstFailing_eq_none, hfirst] at hall
      cases hall
  spends := by
    intro h
    cases h
  refused := fun _ => rfl
  reason := by
    intro msg
    constructor
    · intro h
      rw [← Option.some.inj h]
      exact Or.inr ⟨row, rfl, firstFailing_eq_some.mp hfirst⟩
    · rintro (⟨h, -⟩ | ⟨r, hr, hfails⟩)
      · cases h
      · rw [← Option.some.inj hr, ← firstFailing_eq_some, hfirst] at hfails
        exact hfails
  conclusive := by
    intro h
    exact hreason (Option.some.inj h)

/-- The outcome that the conditions on the record give. -/
def decideUse (found : Option ρ) (unknown : String) (conditions : ρ → List (Bool × String))
    (spend : ρ → σ) (s : σ) : Option String × σ :=
  match found with
  | none => (some unknown, s)
  | some row =>
    match firstFailing (conditions row) with
    | none => (none, spend row)
    | some msg => (some msg, s)

lemma decideUse_singleUse {found : Option ρ} (hunknown : unknown ≠ fallback)
    (hreasons : ∀ row, ∀ c ∈ conditions row, c.2 ≠ fallback) :
    SingleUse found unknown conditions fallback spend s
      (decideUse found unknown conditions spend s) := by
  cases found with
  | none => exact singleUse_unknown hunknown
  | some row =>
    cases hfirst : firstFailing (conditions row) with
    | none =>
      simp only [decideUse, hfirst]
      exact singleUse_granted hfirst
    | some msg =>
      obtain ⟨before, after, hsplit, -⟩ := firstFailing_eq_some.mp hfirst
      have hmem : (false, msg) ∈ conditions row := by simp [hsplit]
      simp only [decideUse, hfirst]
      exact singleUse_refused hfirst (hreasons row _ hmem)

end Outcomes

/-! ### An update and a second read -/

/-- `updated` is the number of records that the update found, and the state after it. -/
def updateThenDiagnose (updated : ℕ × σ) (diagnose : σ → String) : Option String × σ :=
  if 0 < updated.1 then (none, updated.2) else (some (diagnose updated.2), updated.2)

lemma updateThenDiagnose_eq {ρ : Type} {found : Option ρ} {unknown : String}
    {conditions : ρ → List (Bool × String)} {spend : ρ → σ} {s : σ} {updated : ℕ × σ}
    {diagnose : σ → String}
    (hgranted : ∀ row, found = some row → firstFailing (conditions row) = none →
      updated = (1, spend row))
    (hrefused : (∀ row, found = some row → firstFailing (conditions row) ≠ none) →
      updated = (0, s))
    (hunknown : found = none → diagnose s = unknown)
    (hreason : ∀ row msg, found = some row → firstFailing (conditions row) = some msg →
      diagnose s = msg) :
    updateThenDiagnose updated diagnose = decideUse found unknown conditions spend s := by
  cases hfound : found with
  | none =>
    have hzero := hrefused (fun row hrow => (by rw [hfound] at hrow; cases hrow))
    rw [updateThenDiagnose, hzero, if_neg (Nat.lt_irrefl 0), hunknown hfound]
    rfl
  | some row =>
    cases hfirst : firstFailing (conditions row) with
    | none =>
      rw [updateThenDiagnose, hgranted row hfound hfirst, if_pos Nat.one_pos]
      simp only [decideUse, hfirst]
    | some msg =>
      have hzero : updated = (0, s) := by
        apply hrefused
        intro r hr
        rw [hfound] at hr
        rw [← Option.some.inj hr, hfirst]
        exact Option.some_ne_none msg
      rw [updateThenDiagnose, hzero, if_neg (Nat.lt_irrefl 0), hreason row msg hfound hfirst]
      simp only [decideUse, hfirst]

end Lib
