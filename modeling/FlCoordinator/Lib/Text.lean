import Mathlib.Tactic

/-!
# Text

The classes of characters that Python's `str` methods and `int` look at, as in Unicode 15.0.
-/

namespace Lib

/-- `c.isspace()`. -/
def isSpace (c : Char) : Bool :=
  let n := c.toNat
  decide (9 ≤ n ∧ n ≤ 13 ∨ 28 ≤ n ∧ n ≤ 32 ∨ n = 133 ∨ n = 160 ∨ n = 5760 ∨
    8192 ≤ n ∧ n ≤ 8202 ∨ n = 8232 ∨ n = 8233 ∨ n = 8239 ∨ n = 8287 ∨ n = 12288)

/-- The zeros of the decimal scripts. Each is followed by its other nine digits. -/
def decimalZeros : List ℕ :=
  [0x30, 0x660, 0x6f0, 0x7c0, 0x966, 0x9e6, 0xa66, 0xae6, 0xb66, 0xbe6, 0xc66, 0xce6, 0xd66,
    0xde6, 0xe50, 0xed0, 0xf20, 0x1040, 0x1090, 0x17e0, 0x1810, 0x1946, 0x19d0, 0x1a80, 0x1a90,
    0x1b50, 0x1bb0, 0x1c40, 0x1c50, 0xa620, 0xa8d0, 0xa900, 0xa9d0, 0xa9f0, 0xaa50, 0xabf0,
    0xff10, 0x104a0, 0x10d30, 0x11066, 0x110f0, 0x11136, 0x111d0, 0x112f0, 0x11450, 0x114d0,
    0x11650, 0x116c0, 0x11730, 0x118e0, 0x11950, 0x11c50, 0x11d50, 0x11da0, 0x11f50, 0x16a60,
    0x16ac0, 0x16b50, 0x1d7ce, 0x1d7d8, 0x1d7e2, 0x1d7ec, 0x1d7f6, 0x1e140, 0x1e2f0, 0x1e4f0,
    0x1e950, 0x1fbf0]

/-- `unicodedata.decimal(c)`. -/
def decimalValue (c : Char) : Option ℕ :=
  (decimalZeros.find? (fun z => z ≤ c.toNat && c.toNat < z + 10)).map (fun z => c.toNat - z)

/-- The ASCII character that `int` reads for `c`. -/
def asciiChar (c : Char) : Char :=
  if c.toNat < 127 then c
  else if isSpace c then ' '
  else match decimalValue c with
    | some d => Char.ofNat (48 + d)
    | none => '?'

/-- The text without its characters of the class `blank` at both ends. -/
def stripBoth (blank : Char → Bool) (cs : List Char) : List Char :=
  ((cs.dropWhile blank).reverse.dropWhile blank).reverse

/-- `s.split()`: the longest runs without blanks. -/
def words (cs : List Char) : List (List Char) := (cs.splitOnP isSpace).filter (fun w => w ≠ [])

/-- Universal newlines: each line end is read as one `\n`. -/
def oneNewline : List Char → List Char
  | '\r' :: '\n' :: r => '\n' :: oneNewline r
  | '\r' :: r => '\n' :: oneNewline r
  | c :: r => c :: oneNewline r
  | [] => []

/-- The lines of a text file without their ends. -/
def textLines (cs : List Char) : List (List Char) := (oneNewline cs).splitOn '\n'

end Lib
