import FlCoordinator.AuditEntries

/-!
# Reading the audit trail

`AuditTrail.query` and `GET /audit`. The details of an entry are stored as text and read back as the
dict that was logged.
-/

namespace FlCoordinator

open Lib Handler

/-! ### The query -/

/-- One of the dicts that a query returns. -/
structure AuditEntry where
  id : ℕ
  timestamp : Decimal
  action : String
  actor : String
  target : Option String
  details : Json
  chainHash : String

/-- The row that an entry was read from. -/
def AuditEntry.row (e : AuditEntry) : AuditRow where
  timestamp := e.timestamp
  action := e.action
  actor := e.actor
  target := e.target
  details := some (Json.dumps e.details)
  chainHash := e.chainHash

/-- `json.loads(r[5])`, which refuses `None`. -/
def readEntry (p : AuditRow × ℕ) : Except PyErr AuditEntry :=
  match p.1.details with
  | none => .error .typeError
  | some text => do
    let details ← Json.parse text.toList
    .ok
      { id := p.2
        timestamp := p.1.timestamp
        action := p.1.action
        actor := p.1.actor
        target := p.1.target
        details
        chainHash := p.1.chainHash }

/-- `AND column = ?`, unless the filter is missing or empty. -/
def keeps (wanted : Option String) (value : String) : Bool :=
  (wanted.filter (· ≠ "")).all (· = value)

/-- `LIMIT ?`: a negative limit is no limit. -/
def limited {α : Type} (limit : ℤ) (xs : List α) : List α :=
  if limit < 0 then xs else xs.take limit.toNat

namespace AuditTrail

/-- The rows with their ids that the filters keep, the latest first. -/
def selected (trail : AuditTrail) (action actor : Option String) : List (AuditRow × ℕ) :=
  ((trail.rows.zipIdx 1).filter fun p => keeps action p.1.action && keeps actor p.1.actor).reverse

def query (trail : AuditTrail) (action actor : Option String) (limit : ℤ) :
    Except PyErr (List AuditEntry) := do
  let n ← Host.bindInt limit
  (limited n (trail.selected action actor)).mapM readEntry

end AuditTrail

/-- `GET /audit`. -/
def viewAudit (user : Option FLUser) (limit : ℤ) : Api (List AuditEntry) := do
  let _ ← flRequire user "fl_view_audit"
  let out ← Handler.read fun w => w.audit.query none none limit
  attempt out .uncaught

/-! ### Details -/

/-- The details of the row are the text of a dict. -/
def Legible (row : AuditRow) : Prop := ∃ d : Json, d.Plain ∧ row.details = some (Json.dumps d)

section Details

lemma plain_of_bindText {host : Host} {v : Json} {text : Option String}
    (h : host.bindText v = .ok text) : v.Plain := by
  cases v with
  | arr xs => cases h
  | obj fs => cases h
  | _ => trivial

lemma Tells.legible {row : AuditRow} {action actor target : String} {d : Json}
    (h : Tells row action actor target d) (hd : d.Plain) : Legible row := ⟨d, hd, h.details⟩

variable {app : App} {queue : List Pending} {w t : World} {e : Event} {row : AuditRow}

lemma Attests.legible (h : Attests app queue w t e row) : Legible row := by
  cases h with
  | enrolled u operator org serial text free new active certificate key enrolledBy =>
    exact text.legible ⟨by simp, trivial, trivial, trivial, trivial⟩
  | minted u operator token text fresh new org unused =>
    exact text.legible ⟨by simp, trivial, trivial, trivial⟩
  | selfEnrolled jti token org serial text named unused spent free new active certificate key =>
    exact text.legible ⟨by simp, plain_of_bindText named, trivial, trivial⟩
  | blocked u operator org text new status => exact text.legible ⟨by simp, trivial⟩
  | unblocked u operator org text new status => exact text.legible ⟨by simp, trivial⟩
  | revoked u operator org text new status => exact text.legible ⟨by simp, trivial⟩
  | leaveRequested org att given reason caller parsed asked shown text new status kept =>
    exact text.legible ⟨by simp, trivial, trivial⟩
  | removalApproved u operator old org text asked new status confirmed =>
    exact text.legible ⟨by simp, trivial⟩
  | started u operator k r text fresh new running startedBy params =>
    exact text.legible ⟨by simp, trivial, trivial, plain_ofStrs _, trivial, trivial⟩
  | signatureInvalid p c queued text request new fresh rejected =>
    exact text.legible ⟨by simp, trivial, trivial⟩
  | accepted p c queued text request new fresh accepted =>
    exact text.legible ⟨by simp, trivial, trivial, trivial, trivial⟩
  | schemaMismatch u operator canonical shown orgs text schema unfit =>
    exact text.legible ⟨by simp, trivial, plain_ofStrs _, trivial⟩
  | aggregated u operator r g metrics text round status fresh version staged results =>
    exact text.legible ⟨by simp, trivial, trivial, plain_ofStrs _, trivial, trivial⟩
  | published u operator r g text round status version ofRound active =>
    exact text.legible ⟨by simp, trivial, trivial, trivial⟩
  | rolledBack u operator g text version active =>
    exact text.legible ⟨by simp, trivial, trivial, trivial, trivial⟩

lemma ConsoleAttests.legible {c : Console} {s s' : Sys} {l : ConsoleEvent}
    (h : ConsoleAttests c s s' l row) : Legible row := by
  cases h with
  | login user holds named text => exact text.legible ⟨by simp, trivial⟩
  | logout user session text => exact text.legible ⟨by simp, trivial⟩
  | request e' resolved attests => exact attests.legible

lemma after_legible (c : Console) (cs : List ConsoleEvent) :
    ∀ row ∈ (c.after cs).world.audit.rows, Legible row := by
  apply run_invariant_all c.next (I := fun s => ∀ row ∈ s.world.audit.rows, Legible row)
  · intro s l h row hrow
    obtain ⟨new, hrows, hnew⟩ := console_entries c s l
    rw [hrows] at hrow
    rcases List.mem_append.mp hrow with hrow | hrow
    · exact h row hrow
    · exact (hnew row hrow).legible
  · nofun

end Details

/-! ### Answers -/

section Answers

lemma readEntry_legible {p : AuditRow × ℕ} (h : Legible p.1) :
    ∃ e, readEntry p = .ok e ∧ (e.row, e.id) = p ∧ e.details.Plain := by
  obtain ⟨⟨timestamp, action, actor, target, details, chainHash⟩, id⟩ := p
  obtain ⟨d, hd, hdetails⟩ := h
  obtain rfl : details = some (Json.dumps d) := hdetails
  have hparse : Json.parse (Json.dumps d).toList = .ok d := by
    rw [Json.dumps, String.toList_ofList]
    exact Json.parse_text Json.readable_spaced d hd
  refine ⟨⟨id, timestamp, action, actor, target, d, chainHash⟩, ?_, rfl, hd⟩
  change (do
    let details ← Json.parse (Json.dumps d).toList
    Except.ok (⟨id, timestamp, action, actor, target, details, chainHash⟩ : AuditEntry)) = _
  rw [hparse]
  rfl

lemma mapM_readEntry {ps : List (AuditRow × ℕ)} (h : ∀ p ∈ ps, Legible p.1) :
    ∃ entries, ps.mapM readEntry = .ok entries ∧ (entries.map fun e => (e.row, e.id)) = ps ∧
      ∀ e ∈ entries, e.details.Plain := by
  induction ps with
  | nil => exact ⟨[], rfl, rfl, nofun⟩
  | cons p ps ih =>
    obtain ⟨e, he, hrow, hplain⟩ := readEntry_legible (h p List.mem_cons_self)
    obtain ⟨es, hes, hrows, hplains⟩ := ih fun q hq => h q (List.mem_cons_of_mem p hq)
    refine ⟨e :: es, ?_, ?_, ?_⟩
    · rw [List.mapM_cons, he, hes]
      rfl
    · rw [List.map_cons, hrow, hrows]
    · intro e' he'
      rcases List.mem_cons.mp he' with rfl | he'
      · exact hplain
      · exact hplains e' he'

lemma mem_of_mem_limited {α : Type} {limit : ℤ} {xs : List α} {x : α} (h : x ∈ limited limit xs) :
    x ∈ xs := by
  unfold limited at h
  split_ifs at h
  · exact h
  · exact List.mem_of_mem_take h

lemma legible_of_selected {trail : AuditTrail} (h : ∀ row ∈ trail.rows, Legible row)
    {action actor : Option String} {p : AuditRow × ℕ} (hp : p ∈ trail.selected action actor) :
    Legible p.1 := by
  have hmem := (List.mem_filter.mp (List.mem_reverse.mp hp)).1
  exact h p.1 (List.fst_mem_of_mem_zipIdx hmem)

/-- In every reachable state a query answers: the kept rows with their ids, the latest first, up to
the limit, each with the dict that was logged. -/
theorem query_answers (c : Console) (cs : List ConsoleEvent) (action actor : Option String)
    {limit : ℤ} (hlimit : -(2 ^ 63) ≤ limit ∧ limit < 2 ^ 63) :
    ∃ entries, (c.after cs).world.audit.query action actor limit = .ok entries ∧
      (entries.map fun e => (e.row, e.id)) =
        limited limit ((c.after cs).world.audit.selected action actor) ∧
      ∀ e ∈ entries, e.details.Plain := by
  have hbind : Host.bindInt limit = .ok limit := if_pos hlimit
  unfold AuditTrail.query
  rw [hbind]
  apply mapM_readEntry
  intro p hp
  exact legible_of_selected (after_legible c cs) (mem_of_mem_limited hp)

/-- The endpoint shows an operator the last rows as they were logged, in every reachable state. -/
theorem viewAudit_answers (c : Console) (cs : List ConsoleEvent) {user : Option FLUser}
    (permitted : Permitted user "fl_view_audit") {limit : ℤ}
    (hlimit : -(2 ^ 63) ≤ limit ∧ limit < 2 ^ 63) :
    ∃ entries, viewAudit user limit (c.after cs).world = (.ok entries, (c.after cs).world) ∧
      (entries.map fun e => (e.row, e.id)) =
        limited limit ((c.after cs).world.audit.rows.zipIdx 1).reverse ∧
      ∀ e ∈ entries, e.details.Plain := by
  obtain ⟨entries, hquery, hrows, hplain⟩ := query_answers c cs none none hlimit
  have hall : (c.after cs).world.audit.selected none none =
      ((c.after cs).world.audit.rows.zipIdx 1).reverse := by
    have hkeep : ∀ p ∈ (c.after cs).world.audit.rows.zipIdx 1,
        (keeps none p.1.action && keeps none p.1.actor) = true := fun _ _ => rfl
    unfold AuditTrail.selected
    rw [List.filter_eq_self.mpr hkeep]
  rw [hall] at hrows
  refine ⟨entries, ?_, hrows, hplain⟩
  obtain ⟨u, rfl, hrole⟩ := permitted
  unfold viewAudit flRequire
  change (do
    let _ ← (if "fl_view_audit" ∈ u.role.permissions then pure u else raise _ : Api FLUser)
    let out ← Handler.read fun w => w.audit.query none none limit
    attempt out Failure.uncaught : Api (List AuditEntry)) _ = _
  rw [if_pos hrole]
  change (attempt ((c.after cs).world.audit.query none none limit) Failure.uncaught :
    Api (List AuditEntry)) (c.after cs).world = _
  rw [hquery]
  rfl

/-- An operator reads the last two of five entries. -/
theorem viewAudit_answers_loggedRound :
    ∃ entries, viewAudit (some Sample.operator) 2 (Sample.console.after Sample.loggedRound).world =
        (.ok entries, (Sample.console.after Sample.loggedRound).world) ∧
      entries.map (·.id) = [5, 4] ∧ ∀ e ∈ entries, e.details.Plain := by
  have hlimit : -(2 ^ 63) ≤ (2 : ℤ) ∧ (2 : ℤ) < 2 ^ 63 := by decide
  obtain ⟨entries, hview, hrows, hplain⟩ := viewAudit_answers Sample.console Sample.loggedRound
    ⟨Sample.operator, rfl, by decide⟩ hlimit
  have hids : (limited 2 ((Sample.console.after Sample.loggedRound).world.audit.rows.zipIdx
      1).reverse).map (·.2) = [5, 4] := by decide +kernel
  rw [← hrows, List.map_map] at hids
  exact ⟨entries, hview, hids, hplain⟩

end Answers

end FlCoordinator
