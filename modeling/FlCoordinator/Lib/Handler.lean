import Mathlib.Tactic

/-!
# Handlers with exceptions over a mutable state

A request handler reads and writes a state and ends with a value or an exception.
Writes made before an exception stay, as committed statements of a database do. This file
gives the handlers, their weakest preconditions and the rules that walk through a handler
statement by statement.
-/

namespace Lib

/-- A computation over `σ` that ends with an `α` or an exception; its writes are kept in
both cases. -/
def Handler (σ ε α : Type) : Type := σ → Except ε α × σ

namespace Handler

variable {σ ε δ α β : Type}

instance : Monad (Handler σ ε) where
  pure a := fun s => (.ok a, s)
  bind m f := fun s =>
    match m s with
    | (.ok a, t) => f a t
    | (.error e, t) => (.error e, t)

instance : LawfulMonad (Handler σ ε) :=
  LawfulMonad.mk' _
    (fun x => funext fun s => by
      change (match x s with | (.ok a, t) => (Except.ok (id a), t) | (.error e, t) => (.error e, t)) =
        x s
      rcases x s with ⟨_ | _, _⟩ <;> rfl)
    (fun _ _ => rfl)
    (fun x f g => funext fun s => by
      change (match (match x s with | (.ok a, t) => f a t | (.error e, t) => (.error e, t)) with
          | (.ok b, t) => g b t
          | (.error e, t) => (.error e, t)) =
        (match x s with
          | (.ok a, t) => (match f a t with | (.ok b, u) => g b u | (.error e, u) => (.error e, u))
          | (.error e, t) => (.error e, t))
      rcases x s with ⟨_ | _, _⟩ <;> rfl)

def raise (e : ε) : Handler σ ε α := fun s => (.error e, s)

/-- Go on when `p` holds, raise `e` otherwise. -/
def ensure (p : Prop) [Decidable p] (e : ε) : Handler σ ε Unit :=
  if p then pure () else raise e

def orRaise (o : Option α) (e : ε) : Handler σ ε α :=
  match o with
  | some a => pure a
  | none => raise e

/-- Run a pure fallible computation and translate its exception. -/
def attempt (r : Except δ α) (f : δ → ε) : Handler σ ε α :=
  match r with
  | .ok a => pure a
  | .error e => raise (f e)

def read (f : σ → α) : Handler σ ε α := fun s => (.ok (f s), s)

def write (f : σ → σ) : Handler σ ε Unit := fun s => (.ok (), f s)

/-- A state change that also answers, such as an `INSERT` that returns its row id. -/
def exec (f : σ → α × σ) : Handler σ ε α := fun s => (.ok (f s).1, (f s).2)

/-- A state change that may raise; the state it raises in is the one it returns. -/
def tryExec (f : σ → Except ε α × σ) : Handler σ ε α := f

/-! ### Weakest preconditions -/

/-- `Q` holds of the outcome and the final state of `m` started in `s`. -/
def wp (m : Handler σ ε α) (Q : Except ε α → σ → Prop) (s : σ) : Prop :=
  Q (m s).1 (m s).2

lemma wp_def (m : Handler σ ε α) (Q : Except ε α → σ → Prop) (s : σ) :
    m.wp Q s ↔ Q (m s).1 (m s).2 := Iff.rfl

lemma wp_mono {m : Handler σ ε α} {P Q : Except ε α → σ → Prop} {s : σ}
    (h : m.wp P s) (hPQ : ∀ r t, P r t → Q r t) : m.wp Q s :=
  hPQ _ _ h

@[simp] lemma wp_read (f : σ → α) (Q : Except ε α → σ → Prop) (s : σ) :
    (read f : Handler σ ε α).wp Q s ↔ Q (.ok (f s)) s := Iff.rfl

/-- Sequencing: the second handler runs after a value, an exception ends the whole. -/
lemma wp_bind (m : Handler σ ε α) (f : α → Handler σ ε β) (Q : Except ε β → σ → Prop) (s : σ) :
    (m >>= f).wp Q s ↔
      m.wp (fun r t => match r with | .ok a => (f a).wp Q t | .error e => Q (.error e) t) s := by
  unfold wp
  change Q (match m s with | (.ok a, t) => f a t | (.error e, t) => (.error e, t)).1
    (match m s with | (.ok a, t) => f a t | (.error e, t) => (.error e, t)).2 ↔ _
  rcases m s with ⟨r, t⟩
  cases r <;> rfl

/-! ### Rules for one statement followed by the rest -/

lemma wp_ensure_bind {p : Prop} [Decidable p] {e : ε} {f : Unit → Handler σ ε β}
    {Q : Except ε β → σ → Prop} {s : σ}
    (hno : ¬p → Q (.error e) s) (hyes : p → (f ()).wp Q s) : (ensure p e >>= f).wp Q s := by
  rw [wp_bind, ensure]
  by_cases h : p
  · rw [if_pos h]
    exact hyes h
  · rw [if_neg h]
    exact hno h

lemma wp_orRaise_bind {o : Option α} {e : ε} {f : α → Handler σ ε β}
    {Q : Except ε β → σ → Prop} {s : σ}
    (hno : o = none → Q (.error e) s) (hyes : ∀ a, o = some a → (f a).wp Q s) :
    (orRaise o e >>= f).wp Q s := by
  rw [wp_bind]
  cases ho : o with
  | none => exact hno ho
  | some a => exact hyes a ho

lemma wp_attempt_bind {r : Except δ α} {g : δ → ε} {f : α → Handler σ ε β}
    {Q : Except ε β → σ → Prop} {s : σ}
    (hno : ∀ e, r = .error e → Q (.error (g e)) s) (hyes : ∀ a, r = .ok a → (f a).wp Q s) :
    (attempt r g >>= f).wp Q s := by
  rw [wp_bind]
  cases hr : r with
  | error e => exact hno e hr
  | ok a => exact hyes a hr

lemma wp_read_bind {g : σ → α} {f : α → Handler σ ε β} {Q : Except ε β → σ → Prop} {s : σ}
    (h : (f (g s)).wp Q s) : (read g >>= f).wp Q s := h

lemma wp_tryExec_bind {g : σ → Except ε α × σ} {f : α → Handler σ ε β}
    {Q : Except ε β → σ → Prop} {s : σ}
    (hno : ∀ e t, g s = (.error e, t) → Q (.error e) t)
    (hyes : ∀ a t, g s = (.ok a, t) → (f a).wp Q t) : (tryExec g >>= f).wp Q s := by
  rw [wp_bind]
  change (match (g s).1 with | .ok a => (f a).wp Q (g s).2 | .error e => Q (.error e) (g s).2)
  cases h : g s with
  | mk r t =>
    cases r with
    | error e => exact hno e t h
    | ok a => exact hyes a t h

/-! ### The same rules where the statement is known to succeed -/

lemma wp_ensure_bind_of {p : Prop} [Decidable p] {e : ε} {f : Unit → Handler σ ε β}
    {Q : Except ε β → σ → Prop} {s : σ} (hp : p) (h : (f ()).wp Q s) :
    (ensure p e >>= f).wp Q s :=
  wp_ensure_bind (fun hno => absurd hp hno) fun _ => h

lemma wp_orRaise_bind_of {o : Option α} {e : ε} {f : α → Handler σ ε β}
    {Q : Except ε β → σ → Prop} {s : σ} {a : α} (ho : o = some a) (h : (f a).wp Q s) :
    (orRaise o e >>= f).wp Q s := by
  subst ho
  exact wp_orRaise_bind nofun fun b hb => Option.some.inj hb ▸ h

lemma wp_attempt_bind_of {r : Except δ α} {g : δ → ε} {f : α → Handler σ ε β}
    {Q : Except ε β → σ → Prop} {s : σ} {a : α} (hr : r = .ok a) (h : (f a).wp Q s) :
    (attempt r g >>= f).wp Q s := by
  subst hr
  exact wp_attempt_bind nofun fun b hb => Except.ok.inj hb ▸ h

lemma wp_attempt_bind_error {r : Except δ α} {g : δ → ε} {f : α → Handler σ ε β}
    {Q : Except ε β → σ → Prop} {s : σ} {e : δ} (hr : r = .error e) (h : Q (.error (g e)) s) :
    (attempt r g >>= f).wp Q s := by
  subst hr
  exact wp_attempt_bind (fun e' he => Except.error.inj he ▸ h) nofun

/-! ### Calls -/

lemma wp_call_bind {m : Handler σ ε α} {P : Except ε α → σ → Prop} {f : α → Handler σ ε β}
    {Q : Except ε β → σ → Prop} {s : σ} (hm : m.wp P s)
    (hno : ∀ e t, P (.error e) t → Q (.error e) t)
    (hyes : ∀ a t, P (.ok a) t → (f a).wp Q t) : (m >>= f).wp Q s := by
  rw [wp_bind]
  apply wp_mono hm
  intro r t h
  cases r with
  | error e => exact hno e t h
  | ok a => exact hyes a t h

lemma bind_pure_eq_ok {m : Handler σ ε α} {f : α → β} {s t : σ} {b : β}
    (h : (m >>= fun a => pure (f a)) s = (.ok b, t)) : ∃ a, m s = (.ok a, t) ∧ f a = b := by
  change (match m s with
    | (.ok a, u) => (Except.ok (f a), u)
    | (.error e, u) => (.error e, u)) = (.ok b, t) at h
  rcases hm : m s with ⟨e | a, u⟩
  · rw [hm] at h
    cases h
  · rw [hm] at h
    obtain ⟨ha, rfl⟩ := Prod.mk.inj h
    exact ⟨a, rfl, Except.ok.inj ha⟩

/-! ### Handlers that only read -/

/-- `m` leaves the state as it is, and its outcome depends on the part `π` of it. -/
def ReadsOnly {ρ : Type} (π : σ → ρ) (m : Handler σ ε α) : Prop :=
  ∃ f : ρ → Except ε α, ∀ s, m s = (f (π s), s)

section ReadsOnly

variable {ρ : Type} {π : σ → ρ}

lemma ReadsOnly.pure (a : α) : ReadsOnly π (pure a : Handler σ ε α) := ⟨fun _ => .ok a, fun _ => rfl⟩

lemma ReadsOnly.raise (e : ε) : ReadsOnly π (raise e : Handler σ ε α) :=
  ⟨fun _ => .error e, fun _ => rfl⟩

lemma ReadsOnly.ensure (p : Prop) [Decidable p] (e : ε) :
    ReadsOnly π (ensure p e : Handler σ ε Unit) := by
  unfold Handler.ensure
  split
  · exact .pure ()
  · exact .raise e

lemma ReadsOnly.orRaise (o : Option α) (e : ε) : ReadsOnly π (orRaise o e : Handler σ ε α) := by
  cases o with
  | none => exact .raise e
  | some a => exact .pure a

lemma ReadsOnly.attempt (r : Except δ α) (f : δ → ε) :
    ReadsOnly π (attempt r f : Handler σ ε α) := by
  cases r with
  | error e => exact .raise (f e)
  | ok a => exact .pure a

lemma ReadsOnly.read (g : ρ → α) : ReadsOnly π (read fun s => g (π s) : Handler σ ε α) :=
  ⟨fun r => .ok (g r), fun _ => rfl⟩

lemma ReadsOnly.bind {m : Handler σ ε α} {f : α → Handler σ ε β} (hm : ReadsOnly π m)
    (hf : ∀ a, ReadsOnly π (f a)) : ReadsOnly π (m >>= f) := by
  obtain ⟨g, hg⟩ := hm
  choose k hk using hf
  refine ⟨fun r => g r >>= fun a => k a r, fun s => ?_⟩
  change (match m s with | (.ok a, t) => f a t | (.error e, t) => (.error e, t)) = _
  simp only [hg]
  cases g (π s) with
  | error e => rfl
  | ok a => exact hk a s

/-- Two states that agree on what is read give the same outcome. -/
lemma ReadsOnly.congr {m : Handler σ ε α} (h : ReadsOnly π m) {s t : σ} (hst : π s = π t) :
    (m s).1 = (m t).1 := by
  obtain ⟨f, hf⟩ := h
  rw [hf, hf, hst]

lemma ReadsOnly.state {m : Handler σ ε α} (h : ReadsOnly π m) (s : σ) : (m s).2 = s := by
  obtain ⟨f, hf⟩ := h
  rw [hf]

end ReadsOnly

/-! ### Two runs of a handler -/

/-- Related states give the same outcome and stay related. -/
def Respects (R : σ → σ → Prop) (m : Handler σ ε α) : Prop :=
  ∀ s t, R s t → (m s).1 = (m t).1 ∧ R (m s).2 (m t).2

section Respects

variable {R : σ → σ → Prop}

lemma ReadsOnly.respects {ρ : Type} {π : σ → ρ} {m : Handler σ ε α} (h : ReadsOnly π m)
    (hR : ∀ s t, R s t → π s = π t) : Respects R m := by
  intro s t hst
  refine ⟨h.congr (hR s t hst), ?_⟩
  rw [h.state, h.state]
  exact hst

lemma Respects.pure (a : α) : Respects R (pure a : Handler σ ε α) := fun _ _ h => ⟨rfl, h⟩

lemma Respects.ensure (p : Prop) [Decidable p] (e : ε) :
    Respects R (ensure p e : Handler σ ε Unit) := by
  apply ReadsOnly.respects (π := fun _ => ()) (.ensure p e)
  intro s t _
  rfl

lemma Respects.attempt (r : Except δ α) (f : δ → ε) :
    Respects R (attempt r f : Handler σ ε α) := by
  apply ReadsOnly.respects (π := fun _ => ()) (.attempt r f)
  intro s t _
  rfl

lemma Respects.read {f : σ → α} (h : ∀ s t, R s t → f s = f t) :
    Respects R (read f : Handler σ ε α) :=
  fun s t hst => ⟨congrArg Except.ok (h s t hst), hst⟩

lemma Respects.write {f : σ → σ} (h : ∀ s t, R s t → R (f s) (f t)) :
    Respects R (write f : Handler σ ε Unit) := fun s t hst => ⟨rfl, h s t hst⟩

lemma Respects.exec {f : σ → α × σ} (h : ∀ s t, R s t → (f s).1 = (f t).1 ∧ R (f s).2 (f t).2) :
    Respects R (exec f : Handler σ ε α) :=
  fun s t hst => ⟨congrArg Except.ok (h s t hst).1, (h s t hst).2⟩

/-- A step whose value differs in the two runs by `g`, when the rest does not see the difference. -/
lemma Respects.bind_of_map {m : Handler σ ε α} {f : α → Handler σ ε β} (g : α → α)
    (hm : ∀ s t, R s t → (m t).1 = (m s).1.map g ∧ R (m s).2 (m t).2) (hg : ∀ a, f (g a) = f a)
    (hf : ∀ a, Respects R (f a)) : Respects R (m >>= f) := by
  intro s t hst
  obtain ⟨hout, hstate⟩ := hm s t hst
  change (match m s with | (.ok a, u) => f a u | (.error e, u) => (.error e, u)).1 =
      (match m t with | (.ok a, u) => f a u | (.error e, u) => (.error e, u)).1 ∧
    R (match m s with | (.ok a, u) => f a u | (.error e, u) => (.error e, u)).2
      (match m t with | (.ok a, u) => f a u | (.error e, u) => (.error e, u)).2
  generalize m s = p at hout hstate ⊢
  generalize m t = q at hout hstate ⊢
  obtain ⟨r, u⟩ := p
  obtain ⟨r', u'⟩ := q
  obtain rfl : r' = r.map g := hout
  cases r with
  | error e => exact ⟨rfl, hstate⟩
  | ok a =>
    simp only [Except.map, hg]
    exact hf a u u' hstate

lemma Respects.bind {m : Handler σ ε α} {f : α → Handler σ ε β} (hm : Respects R m)
    (hf : ∀ a, Respects R (f a)) : Respects R (m >>= f) := by
  refine bind_of_map id (fun s t hst => ?_) (fun _ => rfl) hf
  obtain ⟨hout, hstate⟩ := hm s t hst
  refine ⟨?_, hstate⟩
  rw [← hout]
  cases (m s).1 <;> rfl

end Respects

end Handler

end Lib
