import FlCoordinator.AuditChain
import FlCoordinator.Lib.Runs

/-!
# Concurrent calls of `log`

Any number of threads call `log` on one `AuditTrail`, and only its lock orders them. The process
may crash between any two of their operations and start again on the same database.
-/

namespace FlCoordinator

open Lib

/-! ### The head of the chain -/

section Head

variable {host : Host} {rows : List AuditRow} {row : AuditRow}

/-- `_get_last_hash`. -/
def getLastHash (rows : List AuditRow) : String :=
  (rows.getLast?.map AuditRow.chainHash).getD genesis

lemma getLastHash_concat : getLastHash (rows ++ [row]) = row.chainHash := by
  rw [getLastHash, List.getLast?_append, List.getLast?_singleton]
  rfl

lemma verifyIntegrity_concat (h : verifyIntegrity host rows = (true, rows.length))
    (hrow : chainHash host (getLastHash rows) row = row.chainHash) :
    verifyIntegrity host (rows ++ [row]) = (true, (rows ++ [row]).length) := by
  rw [verifyIntegrity_iff] at h ⊢
  intro p hp
  rw [chained, entries_append, List.mem_append] at hp
  rcases hp with hp | hp
  · exact h p hp
  · rw [entries, entries, List.mem_singleton, lastLink_eq] at hp
    rw [hp]
    exact hrow

end Head

/-! ### Calls -/

/-- The arguments of a call of `log`, with the time it took before it asked for the lock. -/
structure LogCall where
  timestamp : Decimal
  action : String
  actor : String
  target : Option String
  details : Option (List (String × Json))

namespace LogCall

/-- The row that the call inserts, with `json.dumps(details or {})`. -/
def row (call : LogCall) (chainHash : String) : AuditRow :=
  { timestamp := call.timestamp
    action := call.action
    actor := call.actor
    target := call.target
    details := some (Json.dumps (.obj (call.details.getD [])))
    chainHash }

/-- The `chain_hash` that the call computes. -/
def hash (host : Host) (prevHash : String) (call : LogCall) : String :=
  FlCoordinator.chainHash host prevHash (call.row "")

/-- The trail after the call. -/
def append (host : Host) (trail : AuditTrail) (call : LogCall) : AuditTrail :=
  ⟨trail.rows ++ [call.row (call.hash host trail.prevHash)], call.hash host trail.prevHash⟩

/-- `AuditTrail.log` is a call that no other call interferes with. -/
theorem log_eq_append (host : Host) (trail : AuditTrail) (call : LogCall) {target : String}
    (h : call.target = some target) :
    trail.log host call.timestamp call.action call.actor target (.obj (call.details.getD [])) =
      call.append host trail := by
  rw [append, hash, row, row, h]
  rfl

end LogCall

/-- How far a call is. `locked` to `updated` hold the lock. -/
inductive LogStage
  | idle
  | waiting (call : LogCall)
  | locked (call : LogCall)
  | hashed (call : LogCall) (chainHash : String)
  | inserted (call : LogCall) (chainHash : String)
  | committed (call : LogCall) (chainHash : String)
  | updated (call : LogCall)
  | released (call : LogCall)
  | returned (call : LogCall)
  | raised
  | lost

namespace LogStage

/-- In the body of `with self._lock`. -/
def inside : LogStage → Bool
  | locked _ | hashed _ _ | inserted _ _ | committed _ _ | updated _ => true
  | _ => false

/-- In the body, with the row not committed. -/
def early : LogStage → Bool
  | locked _ | hashed _ _ | inserted _ _ => true
  | _ => false

/-- Not in the body yet. -/
def outside : LogStage → Bool
  | idle | waiting _ => true
  | _ => false

/-- The call whose row is committed. -/
def wrote : LogStage → Option LogCall
  | committed call _ | updated call | released call | returned call => some call
  | _ => none

lemma inside_of_early {stage : LogStage} (h : stage.early = true) : stage.inside = true := by
  cases stage <;> first | rfl | cases h

/-- A crash ends every call that is under way. -/
def crash : LogStage → LogStage
  | idle => idle
  | returned call => returned call
  | raised => raised
  | _ => lost

end LogStage

/-! ### The machine -/

/-- A live `AuditTrail` with its connection: `pending` is the open transaction. -/
structure LogProcess where
  prevHash : String
  lock : Option ℕ
  pending : List (ℕ × AuditRow)

/-- Each row stands with the number of the call that wrote it. `entered` lists the calls in the
order in which they took the lock. -/
structure LogState where
  committed : List (ℕ × AuditRow)
  live : Option LogProcess
  stage : ℕ → LogStage
  entered : List ℕ

inductive LogEvent
  /-- `AuditTrail.__init__`. -/
  | start
  | crash
  | call (i : ℕ) (call : LogCall)
  /-- The call `i` does its next operation. -/
  | step (i : ℕ)
  /-- `chain_input.encode()` or the `INSERT` of the call `i` raises. -/
  | raise (i : ℕ)

namespace LogState

/-- The state of a new database. -/
def initial : LogState := ⟨[], none, fun _ => .idle, []⟩

def rows (s : LogState) : List AuditRow := s.committed.map Prod.snd

/-- The rows that a `SELECT` on the live connection returns. -/
def visible (s : LogState) : List AuditRow :=
  (s.committed ++ (s.live.map LogProcess.pending).getD []).map Prod.snd

/-- What an instance that starts now reads back. -/
def trail (s : LogState) : AuditTrail := ⟨s.rows, getLastHash s.rows⟩

/-- The calls that wrote the committed rows. -/
def authors (s : LogState) : List ℕ := s.committed.map Prod.fst

def setStage (s : LogState) (i : ℕ) (stage : LogStage) : LogState :=
  { s with stage := Function.update s.stage i stage }

/-- The next operation of the call `i` in the process `p`. -/
def advance (host : Host) (s : LogState) (p : LogProcess) (i : ℕ) : LogState :=
  match s.stage i with
  | .waiting call =>
    if p.lock.isNone then
      { s with live := some { p with lock := some i }, entered := s.entered ++ [i] }.setStage i
        (.locked call)
    else s
  | .locked call => s.setStage i (.hashed call (call.hash host p.prevHash))
  | .hashed call hash =>
    { s with live := some { p with pending := p.pending ++ [(i, call.row hash)] } }.setStage i
      (.inserted call hash)
  | .inserted call hash =>
    { s with committed := s.committed ++ p.pending, live := some { p with pending := [] } }.setStage i
      (.committed call hash)
  | .committed call hash =>
    { s with live := some { p with prevHash := hash } }.setStage i (.updated call)
  | .updated call => { s with live := some { p with lock := none } }.setStage i (.released call)
  | .released call => s.setStage i (.returned call)
  | _ => s

/-- The exception leaves the body of `with self._lock`. -/
def raise (s : LogState) (p : LogProcess) (i : ℕ) : LogState :=
  match s.stage i with
  | .locked _ | .hashed _ _ => { s with live := some { p with lock := none } }.setStage i .raised
  | _ => s

def next (host : Host) (e : LogEvent) (s : LogState) : LogState :=
  match e with
  | .start =>
    match s.live with
    | some _ => s
    | none => { s with live := some ⟨getLastHash s.rows, none, []⟩ }
  | .crash => { s with live := none, stage := fun i => (s.stage i).crash }
  | .call i call =>
    match s.live, s.stage i with
    | some _, .idle => s.setStage i (.waiting call)
    | _, _ => s
  | .step i =>
    match s.live with
    | some p => s.advance host p i
    | none => s
  | .raise i =>
    match s.live with
    | some p => s.raise p i
    | none => s

/-- What one event can do. -/
inductive Move (host : Host) (s : LogState) : LogState → Prop
  | start (hs : s.live = none) :
    Move host s { s with live := some ⟨getLastHash s.rows, none, []⟩ }
  | crash : Move host s { s with live := none, stage := fun i => (s.stage i).crash }
  | call {i : ℕ} {call : LogCall} (hi : s.stage i = .idle) : Move host s (s.setStage i (.waiting call))
  | acquire {p : LogProcess} {i : ℕ} {call : LogCall} (hs : s.live = some p)
      (hi : s.stage i = .waiting call) (hfree : p.lock = none) :
    Move host s ({ s with
      live := some { p with lock := some i }, entered := s.entered ++ [i] }.setStage i (.locked call))
  | hash {p : LogProcess} {i : ℕ} {call : LogCall} (hs : s.live = some p)
      (hi : s.stage i = .locked call) :
    Move host s (s.setStage i (.hashed call (call.hash host p.prevHash)))
  | insert {p : LogProcess} {i : ℕ} {call : LogCall} {hash : String} (hs : s.live = some p)
      (hi : s.stage i = .hashed call hash) :
    Move host s ({ s with live := some { p with pending := p.pending ++ [(i, call.row hash)] } }.setStage
      i (.inserted call hash))
  | commit {p : LogProcess} {i : ℕ} {call : LogCall} {hash : String} (hs : s.live = some p)
      (hi : s.stage i = .inserted call hash) :
    Move host s ({ s with
      committed := s.committed ++ p.pending, live := some { p with pending := [] } }.setStage i
        (.committed call hash))
  | update {p : LogProcess} {i : ℕ} {call : LogCall} {hash : String} (hs : s.live = some p)
      (hi : s.stage i = .committed call hash) :
    Move host s ({ s with live := some { p with prevHash := hash } }.setStage i (.updated call))
  | release {p : LogProcess} {i : ℕ} {call : LogCall} (hs : s.live = some p)
      (hi : s.stage i = .updated call) :
    Move host s ({ s with live := some { p with lock := none } }.setStage i (.released call))
  | done {i : ℕ} {call : LogCall} (hi : s.stage i = .released call) :
    Move host s (s.setStage i (.returned call))
  | raise {p : LogProcess} {i : ℕ} {call : LogCall} {hash : String} (hs : s.live = some p)
      (hi : s.stage i = .locked call ∨ s.stage i = .hashed call hash) :
    Move host s ({ s with live := some { p with lock := none } }.setStage i .raised)

variable {host : Host} {s : LogState} {p : LogProcess} {i : ℕ} {call : LogCall} {hash : String}

@[simp] lemma setStage_stage {stage : LogStage} {j : ℕ} :
    (s.setStage i stage).stage j = if j = i then stage else s.stage j :=
  Function.update_apply s.stage i stage j

@[simp] lemma setStage_live {stage : LogStage} : (s.setStage i stage).live = s.live := rfl

@[simp] lemma setStage_committed {stage : LogStage} :
    (s.setStage i stage).committed = s.committed := rfl

@[simp] lemma setStage_entered {stage : LogStage} : (s.setStage i stage).entered = s.entered := rfl

@[simp] lemma setStage_rows {stage : LogStage} : (s.setStage i stage).rows = s.rows := rfl

@[simp] lemma setStage_authors {stage : LogStage} : (s.setStage i stage).authors = s.authors := rfl

lemma advance_move (hs : s.live = some p) :
    s.advance host p i = s ∨ Move host s (s.advance host p i) := by
  rw [advance]
  cases hi : s.stage i with
  | waiting call =>
    cases hlock : p.lock with
    | none => exact Or.inr (Move.acquire hs hi hlock)
    | some j => exact Or.inl rfl
  | locked call => exact Or.inr (Move.hash hs hi)
  | hashed call hash => exact Or.inr (Move.insert hs hi)
  | inserted call hash => exact Or.inr (Move.commit hs hi)
  | committed call hash => exact Or.inr (Move.update hs hi)
  | updated call => exact Or.inr (Move.release hs hi)
  | released call => exact Or.inr (Move.done hi)
  | idle => exact Or.inl rfl
  | returned call => exact Or.inl rfl
  | raised => exact Or.inl rfl
  | lost => exact Or.inl rfl

lemma raise_move (hs : s.live = some p) : s.raise p i = s ∨ Move host s (s.raise p i) := by
  rw [raise]
  cases hi : s.stage i with
  | locked call => exact Or.inr (@Move.raise host s p i call "" hs (Or.inl hi))
  | hashed call hash => exact Or.inr (Move.raise hs (Or.inr hi))
  | _ => exact Or.inl rfl

lemma next_move (host : Host) (e : LogEvent) (s : LogState) :
    next host e s = s ∨ Move host s (next host e s) := by
  cases e with
  | crash => exact Or.inr Move.crash
  | start =>
    dsimp only [next]
    cases hs : s.live with
    | none => exact Or.inr (Move.start hs)
    | some p => exact Or.inl rfl
  | call i call =>
    dsimp only [next]
    split
    · exact Or.inr (Move.call ‹_›)
    · exact Or.inl rfl
  | step i =>
    dsimp only [next]
    cases hs : s.live with
    | none => exact Or.inl rfl
    | some p => exact advance_move hs
  | raise i =>
    dsimp only [next]
    cases hs : s.live with
    | none => exact Or.inl rfl
    | some p => exact raise_move hs

lemma keep {I : LogState → Prop} (hmove : ∀ s t, Move host s t → I s → I t) (e : LogEvent)
    (hs : I s) : I (next host e s) := by
  rcases next_move host e s with h | h
  · rw [h]
    exact hs
  · exact hmove s _ h hs

/-! ### Memory and disk -/

/-- What the process holds while the call `i` is in the body of the lock, where `head` is the hash
of the last committed row. -/
def Held (host : Host) (p : LogProcess) (i : ℕ) (head : String) : LogStage → Prop
  | .locked _ => p.pending = [] ∧ p.prevHash = head
  | .hashed call hash => p.pending = [] ∧ p.prevHash = head ∧ hash = call.hash host head
  | .inserted call hash => p.pending = [(i, call.row hash)] ∧ hash = call.hash host head
  | .committed _ hash => p.pending = [] ∧ hash = head
  | .updated _ => p.pending = [] ∧ p.prevHash = head
  | _ => False

lemma Held.inside {head : String} {stage : LogStage} (h : Held host p i head stage) :
    stage.inside = true := by
  cases stage <;> first | rfl | cases h

structure Coherent (host : Host) (s : LogState) : Prop where
  verifies : verifyIntegrity host s.rows = (true, s.rows.length)
  inside : ∀ i, (s.stage i).inside = true → ∃ p, s.live = some p ∧ p.lock = some i
  free : ∀ p, s.live = some p → p.lock = none → p.pending = [] ∧ p.prevHash = getLastHash s.rows
  held : ∀ p i, s.live = some p → p.lock = some i → Held host p i (getLastHash s.rows) (s.stage i)

lemma Coherent.others (h : Coherent host s) (hs : s.live = some p)
    (hlock : p.lock = none ∨ p.lock = some i) {j : ℕ} (hj : j ≠ i) :
    (s.stage j).inside = false := by
  by_contra hin
  obtain ⟨q, hq, hqj⟩ := h.inside j (by simpa using hin)
  cases hs.symm.trans hq
  rcases hlock with hlock | hlock
  · rw [hlock] at hqj
    cases hqj
  · rw [hlock] at hqj
    exact hj (Option.some.inj hqj).symm

lemma Coherent.of_inside {stage : LogStage} (h : Coherent host s) (hs : s.live = some p)
    (hi : s.stage i = stage) (hin : stage.inside = true) :
    p.lock = some i ∧ Held host p i (getLastHash s.rows) stage := by
  subst hi
  obtain ⟨q, hq, hlock⟩ := h.inside i hin
  cases hs.symm.trans hq
  exact ⟨hlock, h.held p i hs hlock⟩

lemma rows_concat {row : AuditRow} (hpending : p.pending = [(i, row)]) :
    (s.committed ++ p.pending).map Prod.snd = s.rows ++ [row] := by
  rw [hpending, List.map_append]
  rfl

lemma Coherent.of_held (hs : s.live = some p) (hlock : p.lock = some i)
    (hothers : ∀ j, j ≠ i → (s.stage j).inside = false)
    (hver : verifyIntegrity host s.rows = (true, s.rows.length))
    (hheld : Held host p i (getLastHash s.rows) (s.stage i)) : Coherent host s where
  verifies := hver
  inside := by
    intro j hj
    by_cases hji : j = i
    · exact ⟨p, hs, hji ▸ hlock⟩
    · rw [hothers j hji] at hj
      cases hj
  free := by
    intro q hq hnone
    cases hs.symm.trans hq
    rw [hlock] at hnone
    cases hnone
  held := by
    intro q j hq hqj
    cases hs.symm.trans hq
    cases hlock.symm.trans hqj
    exact hheld

lemma Coherent.of_free (hothers : ∀ j, (s.stage j).inside = false)
    (hver : verifyIntegrity host s.rows = (true, s.rows.length))
    (hs : ∀ p, s.live = some p →
      p.lock = none ∧ p.pending = [] ∧ p.prevHash = getLastHash s.rows) : Coherent host s where
  verifies := hver
  inside := by
    intro j hj
    rw [hothers j] at hj
    cases hj
  free := by
    intro p hp _
    exact (hs p hp).2
  held := by
    intro p i hp hlock
    rw [(hs p hp).1] at hlock
    cases hlock

lemma Coherent.setStage {stage : LogStage} (h : Coherent host s)
    (hi : (s.stage i).inside = false) (hstage : stage.inside = false) :
    Coherent host (s.setStage i stage) where
  verifies := h.verifies
  inside := by
    intro j hj
    by_cases hji : j = i
    · subst hji
      rw [setStage_stage, if_pos rfl, hstage] at hj
      cases hj
    · rw [setStage_stage, if_neg hji] at hj
      exact h.inside j hj
  free := h.free
  held := by
    intro p j hp hlock
    have hheld := h.held p j hp hlock
    by_cases hji : j = i
    · subst hji
      rw [hheld.inside] at hi
      cases hi
    · rw [setStage_stage, if_neg hji]
      exact hheld

lemma Coherent.move_inside {t : LogState} {q : LogProcess} {old stage : LogStage}
    (h : Coherent host s) (hs : s.live = some p) (hi : s.stage i = old)
    (hin : old.inside = true) (ht : t.live = some q)
    (hq : q.lock = p.lock) (hstage : t.stage = s.stage)
    (hver : verifyIntegrity host t.rows = (true, t.rows.length))
    (hheld : Held host q i (getLastHash t.rows) stage) : Coherent host (t.setStage i stage) := by
  obtain ⟨hlock, -⟩ := h.of_inside hs hi hin
  apply Coherent.of_held (s := t.setStage i stage) ht (hq.trans hlock)
  · intro j hj
    rw [setStage_stage, if_neg hj, hstage]
    exact h.others hs (Or.inr hlock) hj
  · exact hver
  · rw [setStage_stage, if_pos rfl]
    exact hheld

lemma Coherent.leave {old stage : LogStage} (h : Coherent host s) (hs : s.live = some p)
    (hi : s.stage i = old) (hin : old.inside = true) (hstage : stage.inside = false)
    (hpending : p.pending = []) (hprev : p.prevHash = getLastHash s.rows) :
    Coherent host ({ s with live := some { p with lock := none } }.setStage i stage) := by
  obtain ⟨hlock, -⟩ := h.of_inside hs hi hin
  apply Coherent.of_free
  · intro j
    by_cases hji : j = i
    · rw [setStage_stage, if_pos hji]
      exact hstage
    · rw [setStage_stage, if_neg hji]
      exact h.others hs (Or.inr hlock) hji
  · exact h.verifies
  · intro q hq
    cases Option.some.inj hq
    exact ⟨rfl, hpending, hprev⟩

lemma Coherent.move (s t : LogState) (hmove : Move host s t) (h : Coherent host s) :
    Coherent host t := by
  cases hmove with
  | start hs =>
    apply Coherent.of_free
    · intro j
      by_contra hin
      obtain ⟨p, hp, -⟩ := h.inside j (by simpa using hin)
      rw [hs] at hp
      cases hp
    · exact h.verifies
    · intro p hp
      cases Option.some.inj hp
      exact ⟨rfl, rfl, rfl⟩
  | crash =>
    apply Coherent.of_free
    · intro j
      dsimp only
      cases s.stage j <;> rfl
    · exact h.verifies
    · intro p hp
      cases hp
  | @call i call hi =>
    apply h.setStage
    · rw [hi]
      rfl
    · rfl
  | @acquire p i call hs hi hfree =>
    obtain ⟨hpending, hprev⟩ := h.free p hs hfree
    apply Coherent.of_held (i := i) rfl rfl
    · intro j hj
      rw [setStage_stage, if_neg hj]
      exact h.others hs (Or.inl hfree) hj
    · exact h.verifies
    · rw [setStage_stage, if_pos rfl]
      exact ⟨hpending, hprev⟩
  | @hash p i call hs hi =>
    obtain ⟨-, hpending, hprev⟩ := h.of_inside hs hi rfl
    apply h.move_inside hs hi rfl hs
    · rfl
    · rfl
    · exact h.verifies
    · exact ⟨hpending, hprev, by rw [hprev]⟩
  | @insert p i call hash hs hi =>
    obtain ⟨-, hpending, -, hhash⟩ := h.of_inside hs hi rfl
    apply h.move_inside hs hi rfl
    · rfl
    · rfl
    · rfl
    · exact h.verifies
    · exact ⟨by rw [hpending]; rfl, hhash⟩
  | @commit p i call hash hs hi =>
    obtain ⟨-, hpending, hhash⟩ := h.of_inside hs hi rfl
    have hrows := rows_concat (s := s) hpending
    apply h.move_inside hs hi rfl
    · rfl
    · rfl
    · rfl
    · rw [rows, hrows]
      exact verifyIntegrity_concat h.verifies hhash.symm
    · rw [rows, hrows, getLastHash_concat]
      exact ⟨rfl, rfl⟩
  | @update p i call hash hs hi =>
    obtain ⟨-, hheld⟩ := h.of_inside hs hi rfl
    apply h.move_inside hs hi rfl
    · rfl
    · rfl
    · rfl
    · exact h.verifies
    · exact hheld
  | @release p i call hs hi =>
    obtain ⟨-, hpending, hprev⟩ := h.of_inside hs hi rfl
    exact h.leave hs hi rfl rfl hpending hprev
  | @done i call hi =>
    apply h.setStage
    · rw [hi]
      rfl
    · rfl
  | @raise p i call hash hs hi =>
    rcases hi with hi | hi
    · obtain ⟨-, hpending, hprev⟩ := h.of_inside hs hi rfl
      exact h.leave hs hi rfl rfl hpending hprev
    · obtain ⟨-, hpending, hprev, -⟩ := h.of_inside hs hi rfl
      exact h.leave hs hi rfl rfl hpending hprev

/-! ### Calls and rows -/

/-- The rows of the calls that have written one are there, in the order of the lock. -/
structure Ordered (s : LogState) : Prop where
  written : ∀ i call, (s.stage i).wrote = some call → ∃ hash, (i, call.row hash) ∈ s.committed
  order : s.authors.Sublist s.entered
  early : ∀ i, (s.stage i).early = true → ∃ es, s.entered = es ++ [i] ∧ s.authors.Sublist es
  nodup : s.entered.Nodup
  outside : ∀ i, (s.stage i).outside = true → i ∉ s.entered

lemma Ordered.of_stage {t : LogState} (h : Ordered s) (hcommitted : t.committed = s.committed)
    (hentered : t.entered = s.entered)
    (hwrote : ∀ i call, (t.stage i).wrote = some call → (s.stage i).wrote = some call)
    (hearly : ∀ i, (t.stage i).early = true → (s.stage i).early = true)
    (houtside : ∀ i, (t.stage i).outside = true → (s.stage i).outside = true) : Ordered t where
  written := by
    intro i call hi
    rw [hcommitted]
    exact h.written i call (hwrote i call hi)
  order := by
    rw [authors, hcommitted, hentered]
    exact h.order
  early := by
    intro i hi
    rw [authors, hcommitted, hentered]
    exact h.early i (hearly i hi)
  nodup := hentered ▸ h.nodup
  outside := by
    intro i hi
    rw [hentered]
    exact h.outside i (houtside i hi)

lemma Ordered.of_setStage {t : LogState} {stage : LogStage} (h : Ordered s)
    (hcommitted : t.committed = s.committed) (hentered : t.entered = s.entered)
    (hstage : t.stage = s.stage)
    (hwrote : ∀ call, stage.wrote = some call → (s.stage i).wrote = some call)
    (hearly : stage.early = true → (s.stage i).early = true)
    (houtside : stage.outside = true → (s.stage i).outside = true) :
    Ordered (t.setStage i stage) := by
  apply h.of_stage (t := t.setStage i stage) hcommitted hentered
  all_goals
    intro j
    rw [setStage_stage, hstage]
    split
    · subst j
      assumption
    · first | exact fun _ => id | exact id

lemma Ordered.move (hs : Coherent host s) (t : LogState) (hmove : Move host s t) (h : Ordered s) :
    Ordered t := by
  cases hmove with
  | start hdown =>
    apply h.of_stage
    · rfl
    · rfl
    · exact fun _ _ => id
    · exact fun _ => id
    · exact fun _ => id
  | crash =>
    apply h.of_stage
    · rfl
    · rfl
    all_goals
      intro j
      dsimp only
      cases s.stage j <;> simp [LogStage.crash, LogStage.wrote, LogStage.early, LogStage.outside]
  | @call i call hi =>
    apply h.of_setStage <;> simp [hi, LogStage.wrote, LogStage.early, LogStage.outside]
  | @acquire p i call hlive hi hfree =>
    have hnew : i ∉ s.entered := h.outside i (by rw [hi]; rfl)
    constructor
    · intro j d hj
      rw [setStage_stage] at hj
      split at hj
      · cases hj
      · exact h.written j d hj
    · exact h.order.trans (List.sublist_append_left _ _)
    · intro j hj
      by_cases hji : j = i
      · subst hji
        exact ⟨s.entered, rfl, h.order⟩
      · rw [setStage_stage, if_neg hji] at hj
        have hin := hs.others hlive (Or.inl hfree) hji
        rw [LogStage.inside_of_early hj] at hin
        cases hin
    · exact List.nodup_append.mpr ⟨h.nodup, List.nodup_singleton i,
        fun a ha b hb hab => hnew (List.mem_singleton.mp hb ▸ hab ▸ ha)⟩
    · intro j hj
      rw [setStage_stage] at hj
      split at hj
      · cases hj
      · intro hmem
        rcases List.mem_append.mp hmem with hmem | hmem
        · exact h.outside j hj hmem
        · exact absurd (List.mem_singleton.mp hmem) ‹_›
  | @commit p i call hash hlive hi =>
    obtain ⟨hlock, hpending, -⟩ := hs.of_inside hlive hi rfl
    obtain ⟨es, hes, hsub⟩ := h.early i (by rw [hi]; rfl)
    have hauthors : (s.committed ++ p.pending).map Prod.fst = s.authors ++ [i] := by
      rw [hpending, List.map_append]
      rfl
    constructor
    · intro j d hj
      by_cases hji : j = i
      · subst hji
        rw [setStage_stage, if_pos rfl] at hj
        cases Option.some.inj hj
        refine ⟨hash, List.mem_append_right _ ?_⟩
        rw [hpending]
        exact List.mem_singleton_self _
      · rw [setStage_stage, if_neg hji] at hj
        obtain ⟨k, hk⟩ := h.written j d hj
        exact ⟨k, List.mem_append_left _ hk⟩
    · rw [setStage_authors, authors, hauthors, setStage_entered, hes]
      exact hsub.append_right [i]
    · intro j hj
      by_cases hji : j = i
      · subst hji
        rw [setStage_stage, if_pos rfl] at hj
        cases hj
      · rw [setStage_stage, if_neg hji] at hj
        have hin := hs.others hlive (Or.inr hlock) hji
        rw [LogStage.inside_of_early hj] at hin
        cases hin
    · exact h.nodup
    · intro j hj
      rw [setStage_stage] at hj
      split at hj
      · cases hj
      · exact h.outside j hj
  | @raise p i call hash hlive hi =>
    apply h.of_setStage <;> simp [LogStage.wrote, LogStage.early, LogStage.outside]
  | _ =>
    apply h.of_setStage <;> simp [*, LogStage.wrote, LogStage.early, LogStage.outside]

lemma committed_kept (t : LogState) (hmove : Move host s t) : s.committed <+: t.committed := by
  cases hmove with
  | commit => exact List.prefix_append _ _
  | _ => exact List.prefix_rfl

/-! ### Runs -/

/-- The state after a run on a new database. -/
def after (host : Host) (es : List LogEvent) : LogState := run (next host) initial es

lemma coherent_initial (host : Host) : Coherent host initial :=
  Coherent.of_free (fun _ => rfl) rfl (fun _ h => (by cases h))

lemma ordered_initial : Ordered initial where
  written := fun _ _ h => (by cases h)
  order := List.Sublist.refl _
  early := fun _ h => (by cases h)
  nodup := List.nodup_nil
  outside := fun _ _ => List.not_mem_nil

lemma after_invariant (host : Host) (es : List LogEvent) :
    Coherent host (after host es) ∧ Ordered (after host es) := by
  have hkeep : ∀ s e, Coherent host s ∧ Ordered s →
      Coherent host (next host e s) ∧ Ordered (next host e s) := by
    intro s e hs
    apply keep (I := fun t => Coherent host t ∧ Ordered t) _ e hs
    intro s t hmove h
    exact ⟨h.1.move s t hmove, h.2.move h.1 t hmove⟩
  exact run_invariant_all (next host) hkeep ⟨coherent_initial host, ordered_initial⟩ es

lemma after_kept (host : Host) (es fs : List LogEvent) :
    (after host es).committed <+: (after host (es ++ fs)).committed := by
  rw [after, after, run_append]
  apply run_relation (next host) (R := fun s t => s.committed <+: t.committed)
  · exact fun s => List.prefix_rfl
  · exact fun a b c => List.IsPrefix.trans
  · intro s e
    apply keep (I := fun t => s.committed <+: t.committed) _ e List.prefix_rfl
    intro t u hmove h
    exact h.trans (committed_kept u hmove)

/-- A commit does to the committed rows what the call alone would do, and no other move changes
them. -/
lemma Coherent.trail_move (h : Coherent host s) (t : LogState) (hmove : Move host s t) :
    t.trail = s.trail ∨ ∃ call : LogCall, t.trail = call.append host s.trail := by
  cases hmove with
  | @commit p i call hash hs hi =>
    obtain ⟨-, hpending, hhash⟩ := h.of_inside hs hi rfl
    have hrows := rows_concat (s := s) hpending
    right
    use call
    rw [LogCall.append, trail, trail, ← hhash, setStage_rows, rows, hrows, getLastHash_concat]
    rfl
  | _ => exact Or.inl rfl

/-- Every interleaving leaves the rows that some sequence of calls of `log` leaves. -/
theorem after_trail (host : Host) (es : List LogEvent) :
    ∃ calls : List LogCall,
      (after host es).trail = calls.foldl (fun trail call => call.append host trail) .empty := by
  induction es using List.reverseRecOn with
  | nil => exact ⟨[], rfl⟩
  | append_singleton es e ih =>
    obtain ⟨calls, hcalls⟩ := ih
    have hrun : after host (es ++ [e]) = next host e (after host es) := by
      rw [after, run_append]
      rfl
    rw [hrun]
    rcases next_move host e (after host es) with h | h
    · rw [h]
      exact ⟨calls, hcalls⟩
    · rcases (after_invariant host es).1.trail_move _ h with hsame | ⟨call, hcall⟩
      · exact ⟨calls, hsame.trans hcalls⟩
      · use calls ++ [call]
        rw [hcall, hcalls, List.foldl_append]
        rfl

/-- The rows that a `SELECT` finds on the live connection verify too: an `INSERT` that is not
committed has appended the next row of the chain. -/
lemma Coherent.visible (h : Coherent host s) :
    verifyIntegrity host s.visible = (true, s.visible.length) := by
  have hcommitted : ∀ xs, xs = [] →
      verifyIntegrity host ((s.committed ++ xs).map Prod.snd) =
        (true, ((s.committed ++ xs).map Prod.snd).length) := by
    rintro xs rfl
    rw [List.append_nil]
    exact h.verifies
  rw [LogState.visible]
  cases hs : s.live with
  | none => exact hcommitted [] rfl
  | some p =>
    cases hlock : p.lock with
    | none => exact hcommitted p.pending (h.free p hs hlock).1
    | some i =>
      have hheld := h.held p i hs hlock
      cases hi : s.stage i with
      | inserted call hash =>
        rw [hi] at hheld
        change verifyIntegrity host ((s.committed ++ p.pending).map Prod.snd) =
          (true, ((s.committed ++ p.pending).map Prod.snd).length)
        rw [rows_concat hheld.1]
        exact verifyIntegrity_concat h.verifies hheld.2.symm
      | _ =>
        rw [hi] at hheld
        first
          | exact hcommitted p.pending hheld.1
          | exact hheld.elim

/-- At every point of every interleaving, with any crashes and restarts, the committed rows
verify, and so do the rows that the live connection reads. Every call that returned has one of the
committed rows; these are in the order in which their calls took the lock, and later events only
append to them. -/
theorem log_interleavings (host : Host) (es : List LogEvent) :
    verifyIntegrity host (after host es).rows = (true, (after host es).committed.length) ∧
    verifyIntegrity host (after host es).visible = (true, (after host es).visible.length) ∧
    (∀ i call, (after host es).stage i = .returned call →
      ∃ hash, (i, call.row hash) ∈ (after host es).committed) ∧
    (after host es).authors.Sublist (after host es).entered ∧ (after host es).entered.Nodup ∧
    ∀ fs, (after host es).committed <+: (after host (es ++ fs)).committed := by
  obtain ⟨hcoherent, hordered⟩ := after_invariant host es
  have hlength : (after host es).committed.length = (after host es).rows.length :=
    (List.length_map Prod.snd).symm
  rw [hlength]
  refine ⟨hcoherent.verifies, hcoherent.visible, ?_, hordered.order, hordered.nodup,
    after_kept host es⟩
  intro i call hi
  exact hordered.written i call (by rw [hi]; rfl)

end LogState

end FlCoordinator
