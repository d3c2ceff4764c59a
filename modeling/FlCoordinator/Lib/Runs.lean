import Mathlib.Tactic

/-!
# Runs of an event machine

A machine is a function `next : ε → σ → σ`. A run folds a list of events from a start
state; `visits` lists the state before each event together with that event. The rules below
turn facts about one step into facts about runs of any length.
-/

namespace Lib

section Runs

variable {σ ε : Type*} (next : ε → σ → σ)

/-- The state after the events `es`, started in `s`. -/
def run (s : σ) (es : List ε) : σ := es.foldl (fun t e => next e t) s

/-- The steps of a run: each event with the state it finds. -/
def visits : σ → List ε → List (σ × ε)
  | _, [] => []
  | s, e :: es => (s, e) :: visits (next e s) es

@[simp] lemma run_nil (s : σ) : run next s [] = s := rfl

@[simp] lemma run_cons (s : σ) (e : ε) (es : List ε) :
    run next s (e :: es) = run next (next e s) es := rfl

lemma run_append (s : σ) (es fs : List ε) :
    run next s (es ++ fs) = run next (run next s es) fs := by
  simp [run, List.foldl_append]

@[simp] lemma visits_nil (s : σ) : visits next s [] = [] := rfl

@[simp] lemma visits_cons (s : σ) (e : ε) (es : List ε) :
    visits next s (e :: es) = (s, e) :: visits next (next e s) es := rfl

lemma visits_append (s : σ) (es fs : List ε) :
    visits next s (es ++ fs) = visits next s es ++ visits next (run next s es) fs := by
  induction es generalizing s with
  | nil => rfl
  | cons e es ih => simp [ih]

lemma visits_events (s : σ) (es : List ε) : (visits next s es).map Prod.snd = es := by
  induction es generalizing s with
  | nil => rfl
  | cons e es ih => simp [ih]

lemma mem_visits {s : σ} {es : List ε} {p : σ × ε} :
    p ∈ visits next s es ↔ ∃ pre post, es = pre ++ p.2 :: post ∧ p.1 = run next s pre := by
  induction es generalizing s with
  | nil => simp
  | cons e es ih =>
    rw [visits_cons, List.mem_cons, ih]
    constructor
    · rintro (rfl | ⟨pre, post, hes, hp⟩)
      · exact ⟨[], es, rfl, rfl⟩
      · exact ⟨e :: pre, post, by rw [hes, List.cons_append], hp⟩
    · rintro ⟨pre, post, hes, hp⟩
      cases pre with
      | nil =>
        obtain ⟨he, -⟩ := List.cons.inj hes
        exact Or.inl (Prod.ext hp he.symm)
      | cons a pre =>
        obtain ⟨rfl, htail⟩ := List.cons.inj hes
        exact Or.inr ⟨pre, post, htail, hp⟩

/-- An invariant that every permitted step keeps holds after every permitted run. -/
theorem run_invariant {I : σ → Prop} {A : σ → ε → Prop}
    (hstep : ∀ s e, I s → A s e → I (next e s)) {s : σ} (h0 : I s) (es : List ε)
    (hok : ∀ p ∈ visits next s es, A p.1 p.2) : I (run next s es) := by
  induction es generalizing s with
  | nil => exact h0
  | cons e es ih =>
    apply ih (hstep s e h0 (hok (s, e) (by simp)))
    intro p hp
    exact hok p (by simp [hp])

/-- The same rule when every step is permitted. -/
theorem run_invariant_all {I : σ → Prop} (hstep : ∀ t e, I t → I (next e t)) {s : σ}
    (h0 : I s) (es : List ε) : I (run next s es) :=
  run_invariant next (A := fun _ _ => True) (fun t e h _ => hstep t e h) h0 es
    (fun _ _ => trivial)

/-- A preorder that every step moves along relates the ends of every run. -/
theorem run_relation {R : σ → σ → Prop} (hrefl : ∀ s, R s s)
    (htrans : ∀ a b c, R a b → R b c → R a c) (hstep : ∀ s e, R s (next e s))
    (s : σ) (es : List ε) : R s (run next s es) := by
  induction es generalizing s with
  | nil => exact hrefl s
  | cons e es ih => exact htrans _ _ _ (hstep s e) (ih (next e s))

/-- A fact that is false at the start and true at the end became true at some step. -/
theorem exists_step_of_run {P : σ → Prop} {s : σ} (es : List ε) (h0 : ¬P s)
    (h : P (run next s es)) :
    ∃ pre e post, es = pre ++ e :: post ∧ ¬P (run next s pre) ∧
      P (next e (run next s pre)) := by
  induction es generalizing s with
  | nil => exact absurd h h0
  | cons e es ih =>
    by_cases hP : P (next e s)
    · exact ⟨[], e, es, rfl, h0, hP⟩
    · obtain ⟨pre, a, post, hes, hpre, hpost⟩ := ih hP h
      exact ⟨e :: pre, a, post, by rw [hes, List.cons_append], hpre, hpost⟩

/-- Where a fact comes from: if only steps that satisfy `G` can establish `F`, then a run that
ends in `F` has such a step. -/
theorem run_origin {F : σ → Prop} {G : σ → ε → Prop} {s : σ} (h0 : ¬F s)
    (hstep : ∀ t e, F (next e t) → F t ∨ G t e) (es : List ε) (h : F (run next s es)) :
    ∃ pre e post, es = pre ++ e :: post ∧ G (run next s pre) e := by
  obtain ⟨pre, e, post, hes, hno, hyes⟩ := exists_step_of_run next es h0 h
  exact ⟨pre, e, post, hes, (hstep _ _ hyes).resolve_left hno⟩

/-- The last origin: where only steps in `G` can establish `F`, a run that ends in `F` has a step in
`G` that no other follows. -/
theorem run_last {F : σ → Prop} {G : σ → ε → Prop} {s : σ} (h0 : ¬F s)
    (hstep : ∀ t e, F (next e t) → F t ∨ G t e) (es : List ε) (h : F (run next s es)) :
    ∃ pre e post, es = pre ++ e :: post ∧ G (run next s pre) e ∧
      ∀ p ∈ visits next (next e (run next s pre)) post, ¬G p.1 p.2 := by
  induction es using List.reverseRecOn with
  | nil => exact absurd h h0
  | append_singleton es a ih =>
    by_cases hG : G (run next s es) a
    · refine ⟨es, a, [], rfl, hG, ?_⟩
      simp
    · rw [run_append] at h
      obtain ⟨pre, e, post, hes, hlast, hno⟩ := ih ((hstep _ _ h).resolve_right hG)
      refine ⟨pre, e, post ++ [a], by rw [hes]; simp, hlast, ?_⟩
      intro p hp
      rw [visits_append, List.mem_append] at hp
      rcases hp with hp | hp
      · exact hno p hp
      · have hstate : run next (next e (run next s pre)) post = run next s es := by
          rw [hes, run_append, run_cons]
        rw [hstate, visits_cons, visits_nil, List.mem_singleton] at hp
        rw [hp]
        exact hG

/-- Forward simulation: where each step is matched by a run of the machine below, so is each run. -/
theorem run_simulation {τ φ : Type} (below : φ → τ → τ) {R : σ → τ → Prop}
    {M : σ × ε → List φ → Prop}
    (hstep : ∀ s t e, R s t → ∃ fs, M (s, e) fs ∧ R (next e s) (run below t fs)) {s : σ} {t : τ}
    (h0 : R s t) (es : List ε) :
    ∃ fss, List.Forall₂ M (visits next s es) fss ∧
      R (run next s es) (run below t fss.flatten) := by
  induction es generalizing s t with
  | nil => exact ⟨[], .nil, h0⟩
  | cons e es ih =>
    obtain ⟨fs, hfs, h⟩ := hstep s t e h0
    obtain ⟨fss, hfss, hrun⟩ := ih h
    refine ⟨fs :: fss, .cons hfs hfss, ?_⟩
    rw [List.flatten_cons, run_append]
    exact hrun

end Runs

end Lib
