import FlCoordinator.Host

/-!
# The audit trail

Rows chained by hashes (`coordinator/audit.py`). The chain input is the concatenation of the
previous hash and the fields of the row, without separators.
-/

namespace FlCoordinator

open Lib

/-- A row of `audit_log` without its id: the ids are the positions. -/
structure AuditRow where
  timestamp : Decimal
  action : String
  actor : String
  target : Option String
  details : Option String
  chainHash : String
  deriving DecidableEq

/-- An f-string prints `NULL` as `None`. -/
def strOrNone (o : Option String) : String := o.getD "None"

/-- The fields of a row as the chain input prints them. -/
def AuditRow.fields (row : AuditRow) : List String :=
  [String.ofList (Json.decimalText row.timestamp), row.action, row.actor, strOrNone row.target,
    strOrNone row.details]

/-- `f"{prev_hash}{ts}{action}{actor}{target}{details}"`. -/
def chainInput (prevHash : String) (row : AuditRow) : String :=
  prevHash ++ String.join row.fields

/-- The hash of the chain before its first row. -/
def genesis : String := "genesis"

section Verify

variable (host : Host)

def chainHash (prevHash : String) (row : AuditRow) : String :=
  host.sha256hex (encode (chainInput prevHash row))

/-- The loop of `verify_integrity`, with the index of its first row. -/
def verifyFrom (prevHash : String) (i : ℕ) : List AuditRow → Bool × ℕ
  | [] => (true, i)
  | row :: rows =>
    if chainHash host prevHash row = row.chainHash then verifyFrom row.chainHash (i + 1) rows
    else (false, i)

def verifyIntegrity (rows : List AuditRow) : Bool × ℕ := verifyFrom host genesis 0 rows

end Verify

/-- A live `AuditTrail`: the committed rows and the hash kept in memory. -/
structure AuditTrail where
  rows : List AuditRow
  prevHash : String

namespace AuditTrail

/-- The trail of a new database. -/
def empty : AuditTrail := ⟨[], genesis⟩

/-- `log(action, actor, target, details)` at the time `timestamp`. -/
def log (host : Host) (trail : AuditTrail) (timestamp : Decimal)
    (action actor target : String) (details : Json) : AuditTrail :=
  let row : AuditRow :=
    { timestamp, action, actor
      target := some target
      details := some (Json.dumps details)
      chainHash := "" }
  let hash := chainHash host trail.prevHash row
  { rows := trail.rows ++ [{ row with chainHash := hash }]
    prevHash := hash }

/-- `b` is `a` with at least one more row. -/
def Extended (a b : AuditTrail) : Prop := ∃ row rows, b.rows = a.rows ++ row :: rows

lemma extended_log (host : Host) (a : AuditTrail) (timestamp : Decimal)
    (action actor target : String) (details : Json) :
    Extended a (a.log host timestamp action actor target details) := ⟨_, [], rfl⟩

lemma Extended.trans {a b c : AuditTrail} (hab : Extended a b) (hbc : Extended b c) :
    Extended a c := by
  obtain ⟨row, rows, hb⟩ := hab
  obtain ⟨row', rows', hc⟩ := hbc
  exact ⟨row, rows ++ row' :: rows', by rw [hc, hb, List.append_assoc, List.cons_append]⟩

lemma Extended.ne {a b : AuditTrail} (h : Extended a b) : b ≠ a := by
  rintro rfl
  obtain ⟨row, rows, hrows⟩ := h
  have hlength := congrArg List.length hrows
  rw [List.length_append, List.length_cons] at hlength
  omega

end AuditTrail

end FlCoordinator
