import FlCoordinator.Audit
import FlCoordinator.Lib.HashChain
import FlCoordinator.Lib.JsonRoundTrip
import FlCoordinator.Sample

/-!
# Tamper evidence of the audit trail

What two audit logs have in common that both verify and end in the same hash. The chain input
runs the fields of a row together, so it fixes them only up to where one ends and the next begins.
-/

namespace FlCoordinator

open Lib

/-! ### The printed fields determine the row -/

section Fields

lemma decimalText_injective {d d' : Decimal} (h : Json.decimalText d = Json.decimalText d') :
    d = d' := by
  have hscan := Json.scanValue_floatText 0 (.fin d) Json.endsNumber_nil
  have hscan' := Json.scanValue_floatText 0 (.fin d') Json.endsNumber_nil
  simp only [Json.floatText] at hscan hscan'
  rw [h, hscan'] at hscan
  simp only [Except.ok.injEq, Prod.mk.injEq, Json.float.injEq, PyFloat.fin.injEq, and_true] at hscan
  exact hscan.symm

lemma toHex_injective {a b : Bytes} (h : toHex a = toHex b) : a = b := by
  have hread := fromHex_toHex a
  rw [h, fromHex_toHex] at hread
  exact (Option.some.inj hread).symm

lemma join_inj {xs ys : List String} (hlen : xs.map String.length = ys.map String.length)
    (h : String.join xs = String.join ys) : xs = ys := by
  induction xs generalizing ys with
  | nil =>
    cases ys with
    | nil => rfl
    | cons y ys => cases hlen
  | cons x xs ih =>
    cases ys with
    | nil => cases hlen
    | cons y ys =>
      obtain ⟨hxy, hlen⟩ := List.cons.inj hlen
      rw [String.join_cons, String.join_cons] at h
      have hchars := congrArg String.toList h
      rw [String.toList_append, String.toList_append] at hchars
      obtain ⟨hx, hrest⟩ := List.append_inj hchars (by simpa only [String.length_toList] using hxy)
      rw [String.toList_inj.mp hx, ih hlen (String.toList_inj.mp hrest)]

/-- The rows print their fields with the same lengths, and the same ones are missing. -/
def SameSpans (r r' : AuditRow) : Prop :=
  r.fields.map String.length = r'.fields.map String.length ∧
    r.target.isSome = r'.target.isSome ∧ r.details.isSome = r'.details.isSome

lemma strOrNone_inj {o o' : Option String} (hsome : o.isSome = o'.isSome)
    (h : strOrNone o = strOrNone o') : o = o' := by
  cases o with
  | none =>
    cases o' with
    | none => rfl
    | some t => cases hsome
  | some s =>
    cases o' with
    | none => cases hsome
    | some t => exact congrArg some h

lemma chainInput_inj {p p' : String} {r r' : AuditRow} (hp : p.length = p'.length)
    (hspans : SameSpans r r') (h : chainInput p r = chainInput p' r') :
    p = p' ∧ (r.chainHash = r'.chainHash → r = r') := by
  obtain ⟨hlen, htarget, hdetails⟩ := hspans
  have hall : [p, String.join r.fields] = [p', String.join r'.fields] := by
    refine join_inj ?_ (by simpa [chainInput] using h)
    have hfull := congrArg String.length h
    simp only [chainInput, String.length_append] at hfull
    simp only [List.map_cons, List.map_nil, List.cons.injEq, and_true]
    omega
  obtain ⟨rfl, hfields⟩ := List.cons.inj hall
  have hfields := join_inj hlen (List.cons.inj hfields).1
  simp only [AuditRow.fields, List.cons.injEq, and_true] at hfields
  obtain ⟨htime, haction, hactor, htarget', hdetails'⟩ := hfields
  refine ⟨rfl, fun hhash => ?_⟩
  obtain ⟨timestamp, action, actor, target, details, chainHash⟩ := r
  obtain ⟨timestamp', action', actor', target', details', chainHash'⟩ := r'
  obtain rfl := decimalText_injective (String.ofList_inj.mp htime)
  obtain rfl := strOrNone_inj htarget htarget'
  obtain rfl := strOrNone_inj hdetails hdetails'
  simp only at haction hactor hhash
  rw [haction, hactor, hhash]

end Fields

/-! ### Verified logs -/

section Verified

variable {host : Host}

/-- The rows of a log, each with the hash before it. -/
def chained (rows : List AuditRow) : List (String × AuditRow) :=
  entries AuditRow.chainHash genesis rows

lemma verifyFrom_iff (prevHash : String) (i : ℕ) (rows : List AuditRow) :
    (verifyFrom host prevHash i rows).1 = true ↔
      ∀ p ∈ entries AuditRow.chainHash prevHash rows, chainHash host p.1 p.2 = p.2.chainHash := by
  induction rows generalizing prevHash i with
  | nil => simp [verifyFrom, entries]
  | cons row rows ih =>
    rw [verifyFrom, entries, List.forall_mem_cons]
    by_cases hrow : chainHash host prevHash row = row.chainHash
    · rw [if_pos hrow, ih]
      exact ⟨fun h => ⟨hrow, h⟩, And.right⟩
    · rw [if_neg hrow]
      exact ⟨fun h => (by cases h), fun h => absurd h.1 hrow⟩

lemma verifyFrom_snd {prevHash : String} {i : ℕ} {rows : List AuditRow}
    (h : (verifyFrom host prevHash i rows).1 = true) :
    (verifyFrom host prevHash i rows).2 = i + rows.length := by
  induction rows generalizing prevHash i with
  | nil => rfl
  | cons row rows ih =>
    rw [verifyFrom] at h ⊢
    split at h
    · rw [if_pos ‹_›, ih h, List.length_cons]
      omega
    · cases h

lemma verifyIntegrity_iff {rows : List AuditRow} :
    verifyIntegrity host rows = (true, rows.length) ↔
      ∀ p ∈ chained rows, chainHash host p.1 p.2 = p.2.chainHash := by
  have hall := @verifyFrom_iff host genesis 0 rows
  rw [chained, ← hall]
  constructor
  · intro h
    exact congrArg Prod.fst h
  · intro h
    exact Prod.ext h ((verifyFrom_snd h).trans (Nat.zero_add _))

/-- No two different inputs among those hashed for the two logs have one digest. -/
def NoCollision (host : Host) (A B : List AuditRow) : Prop :=
  ∀ p ∈ chained A, ∀ q ∈ chained B,
    host.sha256 (encode (chainInput p.1 p.2)) = host.sha256 (encode (chainInput q.1 q.2)) →
    encode (chainInput p.1 p.2) = encode (chainInput q.1 q.2)

lemma mem_entries_link {k : String} {rows : List AuditRow} {r : AuditRow} (h : r ∈ rows) :
    ∃ p ∈ entries AuditRow.chainHash k rows, p.2 = r := by
  induction rows generalizing k with
  | nil => cases h
  | cons s rows ih =>
    rcases List.mem_cons.mp h with rfl | h
    · exact ⟨_, List.mem_cons_self, rfl⟩
    · obtain ⟨p, hp, hr⟩ := ih (k := s.chainHash) h
      exact ⟨p, List.mem_cons_of_mem _ hp, hr⟩

lemma chainHash_length {rows : List AuditRow} (hsha : ∀ b, (host.sha256 b).length = 32)
    (h : (verifyIntegrity host rows).1 = true) {r : AuditRow} (hr : r ∈ rows) :
    r.chainHash.length = 64 := by
  obtain ⟨p, hp, rfl⟩ := mem_entries_link (k := genesis) hr
  rw [← (verifyFrom_iff _ _ _).mp h p hp, chainHash, Host.sha256hex, toHex_length, hsha]

/-- Two logs of one length that verify and end in one hash are equal exactly when their rows
print their fields with the same lengths and miss the same ones. -/
theorem verified_eq_iff {A B : List AuditRow} (hsha : ∀ b, (host.sha256 b).length = 32)
    (hcol : NoCollision host A B) (hA : (verifyIntegrity host A).1 = true)
    (hB : (verifyIntegrity host B).1 = true) (hlen : A.length = B.length)
    (hlast : A.getLast?.map AuditRow.chainHash = B.getLast?.map AuditRow.chainHash) :
    A = B ↔ List.Forall₂ SameSpans A B := by
  constructor
  · rintro rfl
    exact List.forall₂_same.mpr fun r _ => ⟨rfl, rfl, rfl⟩
  · intro hspans
    refine (eq_of_lastLink AuditRow.chainHash (chainHash host)
      (S := fun k l => k.length = l.length) ((verifyFrom_iff _ _ _).mp hA)
      ((verifyFrom_iff _ _ _).mp hB) hspans rfl (fun a ha b hb => ?_)
      (fun p hp q hq hsim hR hhash => ?_) ?_).2
    · rw [chainHash_length hsha hA ha, chainHash_length hsha hB hb]
    · have hinput := encode_injective (hcol p hp q hq (toHex_injective hhash))
      exact chainInput_inj hsim hR hinput
    · rw [lastLink_eq, lastLink_eq, hlast]

/-- An org was blocked and unblocked. -/
def blockLog : List AuditRow :=
  ((AuditTrail.empty.log Sample.host Sample.zero "fl.org.block" "admin" "x" (.obj [])).log
    Sample.host Sample.zero "fl.org.unblock" "admin" "x" (.obj [])).rows

/-- The same log with a letter of the first actor moved to the action. -/
def editedLog : List AuditRow :=
  blockLog.modifyHead (fun r => { r with action := "fl.org.blocka", actor := "dmin" })

lemma editedLog_verifies :
    NoCollision Sample.host blockLog editedLog ∧
      (verifyIntegrity Sample.host blockLog).1 = true ∧
      (verifyIntegrity Sample.host editedLog).1 = true ∧ blockLog.length = editedLog.length ∧
      blockLog.map AuditRow.chainHash = editedLog.map AuditRow.chainHash := by
  unfold NoCollision
  decide +kernel

lemma getLast_editedLog :
    blockLog.getLast?.map AuditRow.chainHash = editedLog.getLast?.map AuditRow.chainHash := by
  rw [← List.getLast?_map, ← List.getLast?_map, editedLog_verifies.2.2.2.2]

theorem verified_eq_iff_editedLog :
    blockLog = editedLog ↔ List.Forall₂ SameSpans blockLog editedLog := by
  obtain ⟨hcol, hA, hB, hlen, -⟩ := editedLog_verifies
  exact verified_eq_iff Sample.sha256_length hcol hA hB hlen getLast_editedLog

/-- Two different logs verify and end in one hash. -/
theorem edited_log_verifies :
    ¬∀ A B, NoCollision Sample.host A B → (verifyIntegrity Sample.host A).1 = true →
      (verifyIntegrity Sample.host B).1 = true → A.length = B.length →
      A.getLast?.map AuditRow.chainHash = B.getLast?.map AuditRow.chainHash → A = B := by
  intro h
  obtain ⟨hcol, hA, hB, hlen, -⟩ := editedLog_verifies
  have heq := h blockLog editedLog hcol hA hB hlen getLast_editedLog
  exact absurd heq (by decide +kernel)

end Verified

end FlCoordinator
