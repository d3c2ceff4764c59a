import FlCoordinator.Lib.Bytes
import FlCoordinator.Lib.Json

/-!
# JSON text

`Json.text` is `json.dumps` (ASCII only, with the separators of a `Layout`) and `loads` is
`json.loads` on bytes: the encoding is guessed from the first bytes, the text is parsed by
Python's scanner, and an escape that leaves a lone surrogate is refused, because strings
here are sequences of Unicode scalar values.
-/

namespace Lib

namespace Json

/-! ### Printing -/

/-- The separators of `json.dumps`. -/
structure Layout where
  item : List Char
  key : List Char

/-- `json.dumps` without arguments. -/
def spaced : Layout := ⟨[',', ' '], [':', ' ']⟩

/-- `separators=(",", ":")`. -/
def compact : Layout := ⟨[','], [':']⟩

def digitChar (d : ℕ) : Char := Char.ofNat (48 + d)

/-- The decimal digits of a number, most significant first. -/
def natText (n : ℕ) : List Char :=
  if n = 0 then ['0'] else ((Nat.digits 10 n).reverse).map digitChar

def intText (n : ℤ) : List Char := if n < 0 then '-' :: natText n.natAbs else natText n.natAbs

/-- The sign and digits of an exponent, at least two of them. -/
def expText (e : ℤ) : List Char :=
  (if e < 0 then '-' else '+') ::
    (if e.natAbs < 10 then '0' :: natText e.natAbs else natText e.natAbs)

/-- The digits of `float.__repr__` without the sign: positional for exponents from -4 to 15,
scientific otherwise. -/
def decimalBody (d : Decimal) : List Char :=
  let ds := natText d.mant
  let point := ds.length + d.exp
  if d.mant = 0 then ['0', '.', '0']
  else if -4 < point ∧ point ≤ 16 then
    if point ≤ 0 then ['0', '.'] ++ List.replicate (-point).toNat '0' ++ ds
    else if 0 ≤ d.exp then ds ++ List.replicate d.exp.toNat '0' ++ ['.', '0']
    else ds.take point.toNat ++ ['.'] ++ ds.drop point.toNat
  else ds.take 1 ++ (if ds.length = 1 then [] else '.' :: ds.drop 1) ++ ['e'] ++
    expText (point - 1)

def decimalText (d : Decimal) : List Char :=
  if d.neg then '-' :: decimalBody d else decimalBody d

def floatText : PyFloat → List Char
  | .fin d => decimalText d
  | .nan => ['N', 'a', 'N']
  | .inf false => ['I', 'n', 'f', 'i', 'n', 'i', 't', 'y']
  | .inf true => ['-', 'I', 'n', 'f', 'i', 'n', 'i', 't', 'y']

/-- `\uXXXX`. -/
def unicodeEscape (n : ℕ) : List Char :=
  ['\\', 'u', hexDigit (n / 4096 % 16), hexDigit (n / 256 % 16), hexDigit (n / 16 % 16),
    hexDigit (n % 16)]

/-- One character of a string literal, with `ensure_ascii`. -/
def escapeChar (c : Char) : List Char :=
  if c = '"' then ['\\', '"']
  else if c = '\\' then ['\\', '\\']
  else if c = '\n' then ['\\', 'n']
  else if c = '\r' then ['\\', 'r']
  else if c = '\t' then ['\\', 't']
  else if c = Char.ofNat 12 then ['\\', 'f']
  else if c = Char.ofNat 8 then ['\\', 'b']
  else if 32 ≤ c.toNat ∧ c.toNat < 127 then [c]
  else if c.toNat < 65536 then unicodeEscape c.toNat
  else unicodeEscape (55296 + (c.toNat - 65536) / 1024) ++
    unicodeEscape (56320 + (c.toNat - 65536) % 1024)

def strText (s : String) : List Char := '"' :: (s.toList.flatMap escapeChar ++ ['"'])

mutual
/-- `json.dumps(v)`. -/
def text (l : Layout) : Json → List Char
  | null => ['n', 'u', 'l', 'l']
  | bool true => ['t', 'r', 'u', 'e']
  | bool false => ['f', 'a', 'l', 's', 'e']
  | int n => intText n
  | float x => floatText x
  | str s => strText s
  | arr [] => ['[', ']']
  | arr (x :: xs) => '[' :: (text l x ++ (moreItems l xs ++ [']']))
  | obj [] => ['{', '}']
  | obj ((k, v) :: fs) =>
    '{' :: (strText k ++ (l.key ++ (text l v ++ (moreFields l fs ++ ['}']))))
def moreItems (l : Layout) : List Json → List Char
  | [] => []
  | x :: xs => l.item ++ (text l x ++ moreItems l xs)
def moreFields (l : Layout) : List (String × Json) → List Char
  | [] => []
  | (k, v) :: fs => l.item ++ (strText k ++ (l.key ++ (text l v ++ moreFields l fs)))
end

/-- `json.dumps(v)` as a string. -/
def dumps (v : Json) : String := String.ofList (text spaced v)

/-- `json.dumps(v).encode()`. -/
def dumpsBytes (v : Json) : Bytes := encodeChars (text spaced v)

mutual
/-- `sort_keys=True`: the items of every dict in the order of their keys. -/
def sortKeys : Json → Json
  | arr xs => arr (sortKeysList xs)
  | obj fs => obj ((sortKeysFields fs).insertionSort (fun p q => p.1 ≤ q.1))
  | v => v
def sortKeysList : List Json → List Json
  | [] => []
  | x :: xs => sortKeys x :: sortKeysList xs
def sortKeysFields : List (String × Json) → List (String × Json)
  | [] => []
  | (k, v) :: fs => (k, sortKeys v) :: sortKeysFields fs
end

/-! ### Scanning -/

private def expecting (what : String) : PyErr := .jsonDecodeError ("Expecting " ++ what)

def isBlank (c : Char) : Bool := c = ' ' || c = '\t' || c = '\n' || c = '\r'

def skipBlank (cs : List Char) : List Char := cs.dropWhile isBlank

def digitVal (c : Char) : ℕ := c.toNat - 48

def natOfText (cs : List Char) : ℕ := cs.foldl (fun a c => 10 * a + digitVal c) 0

/-- Four hexadecimal digits. -/
def hex4 (a b c d : Char) : Option ℕ :=
  match hexValue a, hexValue b, hexValue c, hexValue d with
  | some a, some b, some c, some d => some (4096 * a + 256 * b + 16 * c + d)
  | _, _, _, _ => none

def simpleEscape (c : Char) : Option Char :=
  if c = '"' then some '"'
  else if c = '\\' then some '\\'
  else if c = '/' then some '/'
  else if c = 'b' then some (Char.ofNat 8)
  else if c = 'f' then some (Char.ofNat 12)
  else if c = 'n' then some '\n'
  else if c = 'r' then some '\r'
  else if c = 't' then some '\t'
  else none

/-- The code units of a string literal after its opening quote, and the text after it. -/
def scanUnits : List Char → Option (List ℕ × List Char)
  | [] => none
  | '"' :: r => some ([], r)
  | '\\' :: 'u' :: a :: b :: c :: d :: r =>
    match hex4 a b c d, scanUnits r with
    | some n, some (us, rest) => some (n :: us, rest)
    | _, _ => none
  | '\\' :: e :: r =>
    match simpleEscape e, scanUnits r with
    | some c, some (us, rest) => some (c.toNat :: us, rest)
    | _, _ => none
  | c :: r =>
    if c.toNat < 32 ∨ c = '\\' then none
    else match scanUnits r with
      | some (us, rest) => some (c.toNat :: us, rest)
      | none => none

/-- Join surrogate pairs; a lone surrogate has no character. -/
def joinUnits : List ℕ → Option (List Char)
  | [] => some []
  | u :: us =>
    if h : u.isValidChar then (joinUnits us).map (Char.ofNatAux u h :: ·)
    else match us with
      | [] => none
      | v :: us =>
        if 55296 ≤ u ∧ u < 56320 ∧ 56320 ≤ v ∧ v < 57344 then
          (joinUnits us).map (Char.ofNat (65536 + (u - 55296) * 1024 + (v - 56320)) :: ·)
        else none

def scanString (cs : List Char) : Except PyErr (String × List Char) :=
  match scanUnits cs with
  | none => .error (.jsonDecodeError "Invalid string")
  | some (us, rest) =>
    match joinUnits us with
    | some s => .ok (String.ofList s, rest)
    | none => .error .unicodeDecodeError

def scanFrac (cs : List Char) : List Char × List Char :=
  match cs with
  | '.' :: r => if (r.takeWhile Char.isDigit).isEmpty then ([], cs)
    else (r.takeWhile Char.isDigit, r.dropWhile Char.isDigit)
  | _ => ([], cs)

/-- The sign of an exponent: whether it is a minus. -/
def scanSign (cs : List Char) : Bool × List Char :=
  match cs with
  | '-' :: r => (true, r)
  | '+' :: r => (false, r)
  | r => (false, r)

/-- The exponent, if there is one. -/
def scanExp (cs : List Char) : Option ℤ × List Char :=
  match cs with
  | e :: r =>
    if e = 'e' ∨ e = 'E' then
      let signed := scanSign r
      let n : ℤ := natOfText (signed.2.takeWhile Char.isDigit)
      if (signed.2.takeWhile Char.isDigit).isEmpty then (none, cs)
      else (some (if signed.1 then -n else n), signed.2.dropWhile Char.isDigit)
    else (none, cs)
  | [] => (none, cs)

/-- The integer part: a single zero, or digits that start with another one. -/
def scanDigits (cs : List Char) : List Char × List Char :=
  match cs with
  | '0' :: r => (['0'], r)
  | cs => (cs.takeWhile Char.isDigit, cs.dropWhile Char.isDigit)

/-- A number without its sign: an integer unless a fraction or an exponent follows. -/
def scanUnsigned (neg : Bool) (cs : List Char) : Except PyErr (Json × List Char) :=
  let whole := scanDigits cs
  let frac := scanFrac whole.2
  let exp := scanExp frac.2
  if whole.1.isEmpty then .error (expecting "value")
  else if frac.1.isEmpty ∧ exp.1 = none then
    .ok (int (if neg then -(natOfText whole.1 : ℤ) else natOfText whole.1), whole.2)
  else
    .ok (float (.fin (.ofParts neg (natOfText (whole.1 ++ frac.1))
      (exp.1.getD 0 - frac.1.length))), exp.2)

def scanNumber (cs : List Char) : Except PyErr (Json × List Char) :=
  match cs with
  | '-' :: r => scanUnsigned true r
  | _ => scanUnsigned false cs

mutual
/-- One value at the start of the text. The fuel bounds the calls; the length of the text
is always enough. -/
def scanValue : ℕ → List Char → Except PyErr (Json × List Char)
  | 0, _ => .error (expecting "value")
  | fuel + 1, cs =>
    match cs with
    | '"' :: r => (scanString r).map (fun p => (str p.1, p.2))
    | '{' :: r =>
      match skipBlank r with
      | '}' :: r => .ok (obj [], r)
      | r => (scanFields fuel r).map (fun p => (obj (dictOf p.1), p.2))
    | '[' :: r =>
      match skipBlank r with
      | ']' :: r => .ok (arr [], r)
      | r => (scanItems fuel r).map (fun p => (arr p.1, p.2))
    | 'n' :: 'u' :: 'l' :: 'l' :: r => .ok (null, r)
    | 't' :: 'r' :: 'u' :: 'e' :: r => .ok (bool true, r)
    | 'f' :: 'a' :: 'l' :: 's' :: 'e' :: r => .ok (bool false, r)
    | 'N' :: 'a' :: 'N' :: r => .ok (float .nan, r)
    | 'I' :: 'n' :: 'f' :: 'i' :: 'n' :: 'i' :: 't' :: 'y' :: r => .ok (float (.inf false), r)
    | '-' :: 'I' :: 'n' :: 'f' :: 'i' :: 'n' :: 'i' :: 't' :: 'y' :: r =>
      .ok (float (.inf true), r)
    | _ => scanNumber cs
/-- The elements of a list after its bracket, up to the closing one. -/
def scanItems : ℕ → List Char → Except PyErr (List Json × List Char)
  | 0, _ => .error (expecting "value")
  | fuel + 1, cs =>
    match scanValue fuel cs with
    | .error e => .error e
    | .ok (v, r) =>
      match skipBlank r with
      | ']' :: r => .ok ([v], r)
      | ',' :: r => (scanItems fuel (skipBlank r)).map (fun p => (v :: p.1, p.2))
      | _ => .error (expecting "',' delimiter")
/-- The items of a dict after its brace, up to the closing one. -/
def scanFields : ℕ → List Char → Except PyErr (List (String × Json) × List Char)
  | 0, _ => .error (expecting "value")
  | fuel + 1, cs =>
    match cs with
    | '"' :: r =>
      match scanString r with
      | .error e => .error e
      | .ok (k, r) =>
        match skipBlank r with
        | ':' :: r =>
          match scanValue fuel (skipBlank r) with
          | .error e => .error e
          | .ok (v, r) =>
            match skipBlank r with
            | '}' :: r => .ok ([(k, v)], r)
            | ',' :: r => (scanFields fuel (skipBlank r)).map (fun p => ((k, v) :: p.1, p.2))
            | _ => .error (expecting "',' delimiter")
        | _ => .error (expecting "':' delimiter")
    | _ => .error (expecting "property name enclosed in double quotes")
end

/-- `json.loads` on text: one value with blanks around it. -/
def parse (cs : List Char) : Except PyErr Json :=
  match scanValue (cs.length + 1) (skipBlank cs) with
  | .error e => .error e
  | .ok (v, r) => if (skipBlank r).isEmpty then .ok v else .error (.jsonDecodeError "Extra data")

/-! ### Bytes -/

/-- UTF-8, shortest forms only. -/
def decodeUtf8 : Bytes → Option (List Char)
  | [] => some []
  | a :: r =>
    let cont (b : UInt8) : Bool := b.toNat / 64 = 2
    let put (n : ℕ) (low : ℕ) (rest : Option (List Char)) : Option (List Char) :=
      if h : low ≤ n ∧ n.isValidChar then rest.map (Char.ofNatAux n h.2 :: ·) else none
    if a.toNat < 128 then put a.toNat 0 (decodeUtf8 r)
    else match r with
      | [] => none
      | b :: r =>
        if a.toNat / 32 = 6 then
          if cont b then put (a.toNat % 32 * 64 + b.toNat % 64) 128 (decodeUtf8 r) else none
        else match r with
          | [] => none
          | c :: r =>
            if a.toNat / 16 = 14 then
              if cont b && cont c then
                put (a.toNat % 16 * 4096 + b.toNat % 64 * 64 + c.toNat % 64) 2048 (decodeUtf8 r)
              else none
            else match r with
              | [] => none
              | d :: r =>
                if a.toNat / 8 = 30 ∧ (cont b && cont c && cont d) then
                  put (a.toNat % 8 * 262144 + b.toNat % 64 * 4096 + c.toNat % 64 * 64 +
                    d.toNat % 64) 65536 (decodeUtf8 r)
                else none

/-- Two-byte code units. -/
def units16 (big : Bool) : Bytes → Option (List ℕ)
  | [] => some []
  | a :: b :: r => (units16 big r).map
      ((if big then a.toNat * 256 + b.toNat else b.toNat * 256 + a.toNat) :: ·)
  | _ => none

/-- Four-byte code units. -/
def units32 (big : Bool) : Bytes → Option (List ℕ)
  | [] => some []
  | a :: b :: c :: d :: r => (units32 big r).map
      ((if big then ((a.toNat * 256 + b.toNat) * 256 + c.toNat) * 256 + d.toNat
        else ((d.toNat * 256 + c.toNat) * 256 + b.toNat) * 256 + a.toNat) :: ·)
  | _ => none

def chars32 (us : List ℕ) : Option (List Char) :=
  us.mapM (fun u => if h : u.isValidChar then some (Char.ofNatAux u h) else none)

/-- The encoding of bytes without a mark, told from their zero bytes. -/
def decodeUnmarked (b : Bytes) : Option (List Char) :=
  match b with
  | x :: y :: z :: w :: _ =>
    if x = 0 then
      if y ≠ 0 then (units16 true b).bind joinUnits else (units32 true b).bind chars32
    else if y = 0 then
      if z ≠ 0 ∨ w ≠ 0 then (units16 false b).bind joinUnits else (units32 false b).bind chars32
    else decodeUtf8 b
  | [x, y] =>
    if x = 0 then (units16 true b).bind joinUnits
    else if y = 0 then (units16 false b).bind joinUnits
    else decodeUtf8 b
  | _ => decodeUtf8 b

/-- `json.detect_encoding` followed by the decoder it names. -/
def decodeBytes (b : Bytes) : Option (List Char) :=
  match b with
  | 0 :: 0 :: 254 :: 255 :: r => (units32 true r).bind chars32
  | 255 :: 254 :: 0 :: 0 :: r => (units32 false r).bind chars32
  | 254 :: 255 :: r => (units16 true r).bind joinUnits
  | 255 :: 254 :: r => (units16 false r).bind joinUnits
  | 239 :: 187 :: 191 :: r => decodeUtf8 r
  | _ => decodeUnmarked b

/-- `json.loads(b)` for bytes. -/
def loads (b : Bytes) : Except PyErr Json :=
  match decodeBytes b with
  | none => .error .unicodeDecodeError
  | some cs => parse cs

end Json

end Lib
