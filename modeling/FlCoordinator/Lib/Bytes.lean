import Mathlib.Tactic

/-!
# Byte strings

Python's `bytes`: encoding of text, hexadecimal forms and splitting at a byte.
-/

namespace Lib

/-- A bounded quantifier is decided along its list, not over all characters or bytes. -/
instance (priority := 1100) decidableForallMem {α : Type} (p : α → Prop) [DecidablePred p]
    (xs : List α) : Decidable (∀ x ∈ xs, p x) := List.decidableBAll p xs

/-- Byte strings. -/
abbrev Bytes := List UInt8

/-- `.encode()` on a list of characters. -/
def encodeChars (cs : List Char) : Bytes := cs.flatMap String.utf8EncodeChar

/-- `s.encode()`: a string is stored as its UTF-8 bytes. -/
def encode (s : String) : Bytes := s.toByteArray.data.toList

lemma encodeChars_append (cs ds : List Char) :
    encodeChars (cs ++ ds) = encodeChars cs ++ encodeChars ds := by
  simp [encodeChars]

lemma encode_eq (s : String) : encode s = encodeChars s.toList := by
  rw [encode, ← String.utf8Encode_toList, List.utf8Encode, List.data_toByteArray]
  rfl

lemma length_le_encode (s : String) : s.length ≤ (encode s).length := by
  rw [encode_eq, encodeChars, List.length_flatMap, ← String.length_toList]
  refine le_of_eq_of_le ?_ (List.sum_le_sum (f := fun _ => 1) fun c _ => ?_)
  · simp
  · exact String.length_utf8EncodeChar c ▸ c.utf8Size_pos

/-- UTF-8 determines the text. -/
theorem encode_injective : Function.Injective encode := by
  intro s t h
  exact String.toByteArray_inj.mp (ByteArray.ext (Array.toList_inj.mp h))

def hexDigit (d : ℕ) : Char := if d < 10 then Char.ofNat (48 + d) else Char.ofNat (87 + d)

/-- `b.hex()`. -/
def toHex (b : Bytes) : String :=
  String.ofList (b.flatMap (fun x => [hexDigit (x.toNat / 16), hexDigit (x.toNat % 16)]))

lemma toHex_length (b : Bytes) : (toHex b).length = 2 * b.length := by
  simp [toHex, Nat.mul_comm]

def hexValue (c : Char) : Option ℕ :=
  if '0' ≤ c ∧ c ≤ '9' then some (c.toNat - 48)
  else if 'a' ≤ c ∧ c ≤ 'f' then some (c.toNat - 87)
  else if 'A' ≤ c ∧ c ≤ 'F' then some (c.toNat - 55)
  else none

def fromHexChars : List Char → Option Bytes
  | [] => some []
  | [c] => if c = ' ' ∨ ('\t' ≤ c ∧ c ≤ '\r') then some [] else none
  | c :: d :: r =>
    if c = ' ' ∨ ('\t' ≤ c ∧ c ≤ '\r') then fromHexChars (d :: r)
    else match hexValue c, hexValue d with
      | some x, some y => (fromHexChars r).map (UInt8.ofNat (16 * x + y) :: ·)
      | _, _ => none

/-- `bytes.fromhex(s)`: blanks between bytes are skipped. -/
def fromHex (s : String) : Option Bytes := fromHexChars s.toList

lemma hexValue_hexDigit : ∀ d < 16, hexValue (hexDigit d) = some d := by decide

lemma hexDigit_not_blank : ∀ d < 16,
    ¬(hexDigit d = ' ' ∨ ('\t' ≤ hexDigit d ∧ hexDigit d ≤ '\r')) := by
  decide

/-- `bytes.fromhex(b.hex()) == b`. -/
theorem fromHex_toHex (b : Bytes) : fromHex (toHex b) = some b := by
  unfold fromHex toHex
  rw [String.toList_ofList]
  induction b with
  | nil => rfl
  | cons x b ih =>
    have hx : x.toNat < 256 := x.toNat_lt
    have hhi : x.toNat / 16 < 16 := by omega
    have hlo : x.toNat % 16 < 16 := Nat.mod_lt _ (by omega)
    rw [List.flatMap_cons, List.cons_append, List.cons_append, List.nil_append, fromHexChars,
      if_neg (hexDigit_not_blank _ hhi), hexValue_hexDigit _ hhi, hexValue_hexDigit _ hlo]
    have hval : UInt8.ofNat (16 * (x.toNat / 16) + x.toNat % 16) = x := by
      rw [Nat.div_add_mod]
      exact UInt8.ofNat_toNat
    simp only [ih, hval, Option.map_some]

/-- `b.rsplit(sep, 1)` when it gives two parts. -/
def rsplitOnce (sep : UInt8) (b : Bytes) : Option (Bytes × Bytes) :=
  match b.reverse.span (· ≠ sep) with
  | (_, []) => none
  | (after, _ :: before) => some (before.reverse, after.reverse)

lemma rsplitOnce_append (sep : UInt8) (a b : Bytes) (hb : sep ∉ b) :
    rsplitOnce sep (a ++ sep :: b) = some (a, b) := by
  have hspan : ((a ++ sep :: b).reverse.span (· ≠ sep)) = (b.reverse, sep :: a.reverse) := by
    have hrev : (a ++ sep :: b).reverse = b.reverse ++ sep :: a.reverse := by simp
    have hall : ∀ x ∈ b.reverse, (decide (x ≠ sep)) = true := by
      intro x hx
      simp only [ne_eq, decide_not, Bool.not_eq_eq_eq_not, Bool.not_true, decide_eq_false_iff_not]
      rintro rfl
      exact hb (List.mem_reverse.mp hx)
    rw [hrev, List.span_eq_takeWhile_dropWhile, List.takeWhile_append_of_pos hall,
      List.dropWhile_append_of_pos hall]
    simp
  unfold rsplitOnce
  rw [hspan]
  simp

end Lib
