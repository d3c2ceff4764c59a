import Mathlib.Tactic

/-!
# Calls on one database connection

A statement changes what the connection sees, and a commit makes all of that durable. A call that
raises leaves its earlier statements pending, so that the next commit on the connection, of
whichever call, persists them.
-/

namespace Lib

variable {σ ι : Type}

/-- The durable state, and the state with what is pending on the connection. -/
structure Connection (σ : Type) where
  committed : σ
  current : σ

/-- One statement of a call. -/
inductive Statement (σ : Type)
  | read
  | write (next : σ)
  | commit

/-- A call, and how many of its statements take effect before the one that raises. The call
returns when there is no such statement. -/
structure Attempt (ι : Type) where
  call : ι
  done : ℕ

namespace Connection

def step (c : Connection σ) : Statement σ → Connection σ
  | .read => c
  | .write next => { c with current := next }
  | .commit => { c with committed := c.current }

def run (c : Connection σ) (code : List (Statement σ)) : Connection σ := code.foldl step c

/-- `body` gives the statements of a call from what the connection sees when it starts. -/
def attempt (body : ι → σ → List (Statement σ)) (c : Connection σ) (a : Attempt ι) :
    Connection σ :=
  c.run ((body a.call c.current).take a.done)

def session (body : ι → σ → List (Statement σ)) (c : Connection σ) (as : List (Attempt ι)) :
    Connection σ :=
  as.foldl (attempt body) c

/-- The call when nothing raises. -/
def complete (body : ι → σ → List (Statement σ)) (c : Connection σ) (call : ι) : Connection σ :=
  c.run (body call c.current)

/-- Whatever is called later, and wherever that raises, the durable state is the one without the
call or the one with all of it. -/
def AllOrNothing (body : ι → σ → List (Statement σ)) (c : Connection σ) (a : Attempt ι) : Prop :=
  ∀ later : List (Attempt ι),
    (session body (attempt body c a) later).committed = (session body c later).committed ∨
      (session body (attempt body c a) later).committed =
        (session body (complete body c a.call) later).committed

/-! ### Two runs side by side -/

/-- Two statements of the same kind, which lead to related states. -/
inductive Paired (R : σ → σ → Prop) : Statement σ → Statement σ → Prop
  | read : Paired R .read .read
  | write {s t : σ} (h : R s t) : Paired R (.write s) (.write t)
  | commit : Paired R .commit .commit

/-- On related states every call takes paired statements. -/
def Bisimulation (body : ι → σ → List (Statement σ)) (R : σ → σ → Prop) : Prop :=
  ∀ call s t, R s t → List.Forall₂ (Paired R) (body call s) (body call t)

/-- Where a call is pending: the connection `c` sees what it sees after the whole call, in `w`, and
has committed either nothing of it, as in `d`, or all of it. -/
structure Pending (R : σ → σ → Prop) (c d w : Connection σ) : Prop where
  current : c.current = w.current
  related : R d.current c.current
  committed : c.committed = d.committed ∨ c.committed = w.committed

variable {body : ι → σ → List (Statement σ)} {R : σ → σ → Prop} {c d w : Connection σ}

lemma Pending.step (h : Pending R c d w) {x y : Statement σ} (hxy : Paired R x y) :
    Pending R (c.step y) (d.step x) (w.step y) := by
  cases hxy with
  | read => exact h
  | write hst => exact ⟨rfl, hst, h.committed⟩
  | commit => exact ⟨h.current, h.related, Or.inr h.current⟩

lemma Pending.run {code code' : List (Statement σ)} (hcode : List.Forall₂ (Paired R) code code')
    (h : Pending R c d w) : Pending R (c.run code') (d.run code) (w.run code') := by
  induction hcode generalizing c d w with
  | nil => exact h
  | cons hxy _ ih => exact ih (h.step hxy)

lemma Pending.attempt (hbody : Bisimulation body R) (h : Pending R c d w) (a : Attempt ι) :
    Pending R (c.attempt body a) (d.attempt body a) (w.attempt body a) := by
  have hcode := List.forall₂_take a.done (hbody a.call _ _ h.related)
  have hrun := h.run hcode
  unfold Connection.attempt
  rw [← h.current]
  exact hrun

lemma Pending.session (hbody : Bisimulation body R) (as : List (Attempt ι))
    (h : Pending R c d w) :
    Pending R (c.session body as) (d.session body as) (w.session body as) := by
  induction as generalizing c d w with
  | nil => exact h
  | cons a as ih => exact ih (h.attempt hbody a)

/-- A call that raises when only its commit is missing is made durable as a whole, or not at
all. -/
theorem allOrNothing_of_pending (hbody : Bisimulation body R) {a : Attempt ι}
    (h : Pending R (attempt body c a) c (complete body c a.call)) : AllOrNothing body c a :=
  fun later => (h.session hbody later).committed

/-- A call of which nothing took effect. -/
theorem allOrNothing_of_unchanged {a : Attempt ι} (h : attempt body c a = c) :
    AllOrNothing body c a := by
  intro later
  left
  rw [h]

/-- A call of which everything took effect. -/
theorem allOrNothing_of_complete {a : Attempt ι}
    (h : attempt body c a = complete body c a.call) : AllOrNothing body c a := by
  intro later
  right
  rw [h]

end Connection

end Lib
