import FlCoordinator.Lib.Dict
import FlCoordinator.Lib.Text
import Mathlib.Data.Nat.Digits.Defs

/-!
# JSON values as Python sees them

`Json` is what `json.loads` returns: `None`, booleans, unbounded integers, floats, strings,
lists and dicts. Finite floats are exact decimals. The operations below are the Python
operations on such values (`dict.get`, `in`, truth, `int`, `==` inside containers), each
with the exception Python raises.
-/

namespace Lib

/-- The Python exceptions the model distinguishes, with their message where one is used. -/
inductive PyErr
  | jsonDecodeError (msg : String)
  | unicodeDecodeError
  | unicodeEncodeError
  | valueError (msg : String)
  | typeError
  | attributeError
  | keyError (key : String)
  | indexError
  | overflowError
  | integrityError
  | interfaceError
  | osError
  | recursionError
  deriving DecidableEq, Repr

/-- `JSONDecodeError` or `UnicodeDecodeError`. -/
def PyErr.isDecodeError : PyErr → Bool
  | .jsonDecodeError _ => true
  | .unicodeDecodeError => true
  | _ => false

/-- `str(e)`, where the model keeps the text. -/
def PyErr.text : PyErr → String
  | .jsonDecodeError msg => msg
  | .valueError msg => msg
  | .keyError key => key
  | _ => ""

lemma bind_eq_ok {ε α β : Type} {r : Except ε α} {f : α → Except ε β} {b : β} :
    (r >>= f) = .ok b ↔ ∃ a, r = .ok a ∧ f a = .ok b := by
  cases r with
  | error e => exact ⟨fun h => (by cases h), fun ⟨_, h, _⟩ => (by cases h)⟩
  | ok a => exact ⟨fun h => ⟨a, rfl, h⟩, fun ⟨_, h, hf⟩ => (by cases h; exact hf)⟩

lemma eq_ok_of_toOption {ε α : Type} {r : Except ε α} {a : α} (h : r.toOption = some a) :
    r = .ok a := by
  cases r with
  | error e => cases h
  | ok b => exact congrArg Except.ok (Option.some.inj h)

lemma mapM_isOk {ε α β : Type} {f : α → Except ε β} {xs : List α} :
    (∃ ys, xs.mapM f = .ok ys) ↔ ∀ x ∈ xs, ∃ y, f x = .ok y := by
  induction xs with
  | nil => exact ⟨fun _ x hx => absurd hx List.not_mem_nil, fun _ => ⟨[], rfl⟩⟩
  | cons x xs ih =>
    rw [List.forall_mem_cons, ← ih, List.mapM_cons]
    constructor
    · rintro ⟨ys, h⟩
      obtain ⟨y, hy, h⟩ := bind_eq_ok.mp h
      obtain ⟨zs, hzs, -⟩ := bind_eq_ok.mp h
      exact ⟨⟨y, hy⟩, zs, hzs⟩
    · rintro ⟨⟨y, hy⟩, zs, hzs⟩
      exact ⟨y :: zs, bind_eq_ok.mpr ⟨y, hy, bind_eq_ok.mpr ⟨zs, hzs, rfl⟩⟩⟩

lemma mapM_getElem {ε α β : Type} {f : α → Except ε β} {xs : List α} {ys : List β}
    (h : xs.mapM f = .ok ys) :
    ys.length = xs.length ∧ ∀ (r : ℕ) x y, xs[r]? = some x → ys[r]? = some y → f x = .ok y := by
  induction xs generalizing ys with
  | nil =>
    obtain rfl := Except.ok.inj h
    exact ⟨rfl, fun r x y hx => by simp at hx⟩
  | cons a xs ih =>
    rw [List.mapM_cons] at h
    obtain ⟨b, hb, h⟩ := bind_eq_ok.mp h
    obtain ⟨bs, hbs, h⟩ := bind_eq_ok.mp h
    obtain rfl := Except.ok.inj h
    obtain ⟨hlength, hall⟩ := ih hbs
    refine ⟨by rw [List.length_cons, hlength, List.length_cons], fun r x y hx hy => ?_⟩
    cases r with
    | zero =>
      obtain rfl := Option.some.inj hx
      obtain rfl := Option.some.inj hy
      exact hb
    | succ r => exact hall r x y hx hy

/-! ### Floats -/

/-- Drop trailing decimal zeros, `fuel` of them at most. -/
def stripZeros : ℕ → ℕ → ℤ → ℕ × ℤ
  | 0, m, e => (m, e)
  | fuel + 1, m, e => if m % 10 = 0 then stripZeros fuel (m / 10) (e + 1) else (m, e)

lemma stripZeros_mul_pow (fuel k m : ℕ) (e : ℤ) (hk : k ≤ fuel) (hm : m % 10 ≠ 0) :
    stripZeros fuel (m * 10 ^ k) e = (m, e + k) := by
  induction k generalizing fuel e with
  | zero =>
    cases fuel with
    | zero => simp [stripZeros]
    | succ fuel => simp [stripZeros, hm]
  | succ k ih =>
    obtain ⟨fuel, rfl⟩ := Nat.exists_eq_add_of_le' hk
    have hmod : m * 10 ^ (k + 1) % 10 = 0 := by rw [pow_succ, ← mul_assoc]; omega
    have hdiv : m * 10 ^ (k + 1) / 10 = m * 10 ^ k := by rw [pow_succ, ← mul_assoc]; omega
    rw [← Nat.add_assoc, stripZeros, if_pos hmod, hdiv, ih _ _ (by omega)]
    congr 1
    push_cast
    ring

lemma stripZeros_normal (fuel m : ℕ) (e : ℤ) (h0 : m ≠ 0) (hm : m < 10 ^ fuel) :
    (stripZeros fuel m e).1 % 10 ≠ 0 := by
  induction fuel generalizing m e with
  | zero => simp at hm; omega
  | succ fuel ih =>
    rw [stripZeros]
    split
    · exact ih _ _ (by omega) (by rw [pow_succ] at hm; omega)
    · assumption

/-- A finite float `± mant * 10 ^ exp`, with no trailing zero in `mant` and the exponent of
zero fixed, so that each value has one representation (and zero two, by its sign). -/
structure Decimal where
  neg : Bool
  mant : ℕ
  exp : ℤ
  normal : mant % 10 = 0 → mant = 0 ∧ exp = 0
  deriving DecidableEq

namespace Decimal

/-- The decimal `± m * 10 ^ e`. -/
def ofParts (neg : Bool) (m : ℕ) (e : ℤ) : Decimal :=
  if h : m = 0 then ⟨neg, 0, 0, fun _ => ⟨rfl, rfl⟩⟩
  else
    { neg
      mant := (stripZeros (m.log2 + 1) m e).1
      exp := (stripZeros (m.log2 + 1) m e).2
      normal := fun h0 => absurd h0 (stripZeros_normal _ m e h
        (lt_of_lt_of_le Nat.lt_log2_self (Nat.pow_le_pow_left (by omega) _))) }

def ofInt (n : ℤ) : Decimal := ofParts (decide (n < 0)) n.natAbs 0

def toRat (d : Decimal) : ℚ := (if d.neg then -1 else 1) * d.mant * (10 : ℚ) ^ d.exp

/-- `int(d)`: truncation toward zero. -/
def trunc (d : Decimal) : ℤ :=
  let n : ℕ := if 0 ≤ d.exp then d.mant * 10 ^ d.exp.toNat else d.mant / 10 ^ (-d.exp).toNat
  if d.neg then -n else n

/-- The sum of two decimals, without rounding. -/
def add (a b : Decimal) : Decimal :=
  let e := min a.exp b.exp
  let scaled (d : Decimal) : ℤ := (if d.neg then -1 else 1) * (d.mant * 10 ^ (d.exp - e).toNat : ℕ)
  let n := scaled a + scaled b
  ofParts (decide (n < 0)) n.natAbs e

/-- `round(q, k)`: the nearest multiple of `10 ^ -k`, ties to the even one. -/
def round (q : ℚ) (k : ℕ) : Decimal :=
  let x := q * 10 ^ k
  let f := ⌊x⌋
  let n := if x - f < 1 / 2 then f else if 1 / 2 < x - f then f + 1
    else if f % 2 = 0 then f else f + 1
  ofParts (decide (n < 0)) n.natAbs (-k)

end Decimal

/-- Python floats. -/
inductive PyFloat
  | fin (d : Decimal)
  | nan
  | inf (neg : Bool)
  deriving DecidableEq

/-! ### Values -/

inductive Json
  | null
  | bool (b : Bool)
  | int (n : ℤ)
  | float (x : PyFloat)
  | str (s : String)
  | arr (xs : List Json)
  | obj (fields : List (String × Json))

namespace Json

instance : Inhabited Json := ⟨.null⟩

def ofStrs (xs : List String) : Json := .arr (xs.map .str)

def ofDecimal (d : Decimal) : Json := .float (.fin d)

/-- `bool(v)`. -/
def truthy : Json → Bool
  | null => false
  | bool b => b
  | int n => n ≠ 0
  | float (.fin d) => d.mant ≠ 0
  | float _ => true
  | str s => s ≠ ""
  | arr xs => !xs.isEmpty
  | obj fields => !fields.isEmpty

/-- The value under a key of a dict's items. -/
def field? (k : String) (fields : List (String × Json)) : Option Json :=
  (fields.find? (fun p => p.1 = k)).map (·.2)

/-- `d[k] = v` on a dict's items: an existing key keeps its place. -/
def setField (k : String) (v : Json) : List (String × Json) → List (String × Json)
  | [] => [(k, v)]
  | (j, w) :: rest => if j = k then (k, v) :: rest else (j, w) :: setField k v rest

/-- `dict(pairs)`: later values win, first positions stay. -/
def dictOf (pairs : List (String × Json)) : List (String × Json) :=
  pairs.foldl (fun fields p => setField p.1 p.2 fields) []

/-- `v.get(k, default)`; only dicts have a `get`. -/
def get (v : Json) (k : String) (default : Json) : Except PyErr Json :=
  match v with
  | obj fields => .ok ((field? k fields).getD default)
  | _ => .error .attributeError

/-- Change in place what `v.get(k, {})` returns; a missing key gives a dict that is dropped. -/
def modifyKey (k : String) (f : Json → Except PyErr Json) : Json → Except PyErr Json
  | obj fields =>
    match field? k fields with
    | some v => do
      let v' ← f v
      .ok (.obj (setField k v' fields))
    | none => do
      let _ ← f (.obj [])
      .ok (.obj fields)
  | _ => .error .attributeError

/-- `v[k]` for a string `k`. -/
def item (k : String) : Json → Except PyErr Json
  | obj fields =>
    match field? k fields with
    | some v => .ok v
    | none => .error (.keyError k)
  | _ => .error .typeError

/-- `v or w`. -/
def orElse (v w : Json) : Json := if v.truthy then v else w

/-- `k in v` for a string `k`: a key of a dict, an element of a list, a part of a string. -/
def contains (k : String) : Json → Except PyErr Bool
  | obj fields => .ok (fields.any (fun p => p.1 = k))
  | arr xs => .ok (xs.any (fun x => match x with | str s => s = k | _ => false))
  | str s => .ok (decide (k.toList <:+: s.toList))
  | _ => .error .typeError

/-- `v == s` for a string `s`. -/
def isStr (s : String) : Json → Bool
  | str t => t = s
  | _ => false

def str? : Json → Option String
  | str s => some s
  | _ => none

/-- The elements that `for x in v` and `list(v)` run over. -/
def items : Json → Except PyErr (List Json)
  | arr xs => .ok xs
  | str s => .ok (s.toList.map (fun c => str (String.singleton c)))
  | obj fields => .ok (fields.map (fun p => str p.1))
  | _ => .error .typeError

/-- `int(s)` for a string: surrounding blanks, a sign, digits with single underscores
between them, where blanks and digits of other scripts count as those of ASCII. -/
def intOfStr (s : String) : Except PyErr ℤ :=
  let blank (c : Char) : Bool := c = ' ' || ('\t' ≤ c && c ≤ '\r')
  let cs := stripBoth blank (s.toList.map asciiChar)
  let (neg, ds) : Bool × List Char :=
    match cs with
    | '-' :: r => (true, r)
    | '+' :: r => (false, r)
    | r => (false, r)
  let groups := ds.splitOn '_'
  if groups.all (fun g => !g.isEmpty && g.all Char.isDigit) then
    let n : ℕ := ds.foldl (fun a c => if c = '_' then a else 10 * a + (c.toNat - '0'.toNat)) 0
    .ok (if neg then -n else n)
  else .error (.valueError s!"invalid literal for int() with base 10: {s}")

/-- The digits that count for `sys.set_int_max_str_digits`. -/
def digitCount (s : String) : ℕ := (s.toList.map asciiChar).countP Char.isDigit

/-- `int(v)`; a string of more than 4300 digits is refused. -/
def toInt : Json → Except PyErr ℤ
  | bool b => .ok (if b then 1 else 0)
  | int n => .ok n
  | float (.fin d) => .ok d.trunc
  | float .nan => .error (.valueError "cannot convert float NaN to integer")
  | float (.inf _) => .error .overflowError
  | str s => if 4300 < digitCount s then
      .error (.valueError "Exceeds the limit (4300 digits) for integer string conversion")
    else intOfStr s
  | _ => .error .typeError

/-- The number a value compares as: booleans are 0 and 1. -/
def num? : Json → Option ℚ
  | bool b => some (if b then 1 else 0)
  | int n => some n
  | float (.fin d) => some d.toRat
  | _ => none

mutual
/-- `==` between elements of containers, where an object equals itself: the `NaN` that the
decoder returns is one object. -/
def same : Json → Json → Bool
  | null, null => true
  | str s, str t => s = t
  | float .nan, float .nan => true
  | float (.inf a), float (.inf b) => a = b
  | arr xs, arr ys => sameList xs ys
  | obj fs, obj gs => fs.length = gs.length && sameFields fs gs
  | bool a, v => v.num? = (bool a).num?
  | int a, v => v.num? = (int a).num?
  | float (.fin a), v => v.num? = (float (.fin a)).num?
  | _, _ => false
def sameList : List Json → List Json → Bool
  | [], [] => true
  | x :: xs, y :: ys => same x y && sameList xs ys
  | _, _ => false
def sameFields : List (String × Json) → List (String × Json) → Bool
  | [], _ => true
  | (k, x) :: fs, gs =>
    (match field? k gs with
      | some y => same x y
      | none => false) && sameFields fs gs
end

/-- Lists and dicts have no hash. -/
def hashable : Json → Bool
  | arr _ => false
  | obj _ => false
  | _ => true

/-- What a scalar compares as. -/
inductive Atom
  | null
  | num (q : ℚ)
  | nan
  | inf (neg : Bool)
  | str (s : String)

/-- The atom of a scalar; lists and dicts have none. -/
def atom? : Json → Option Atom
  | null => some .null
  | float .nan => some .nan
  | float (.inf neg) => some (.inf neg)
  | str s => some (.str s)
  | v => v.num?.map .num

lemma atom?_of_hashable {a : Json} (h : a.hashable = true) : ∃ x, a.atom? = some x := by
  rcases a with _ | b | n | (d | _ | neg) | s | xs | fs
  case arr => cases h
  case obj => cases h
  all_goals exact ⟨_, rfl⟩

/-- `==` compares scalars by their atoms. -/
lemma same_iff_atom {a b : Json} {x : Atom} (h : a.atom? = some x ∨ b.atom? = some x) :
    a.same b = true ↔ a.atom? = b.atom? := by
  rcases a with _ | p | n | (d | _ | neg) | s | xs | fs <;>
    rcases b with _ | q | m | (e | _ | neg') | t | ys | gs <;>
      simp [same, atom?, num?, eq_comm] at h ⊢

lemma same_of_same_same {a b c : Json} (ha : a.hashable = true) (hac : a.same c = true)
    (hbc : b.same c = true) : a.same b = true := by
  obtain ⟨x, hx⟩ := atom?_of_hashable ha
  have hc := (same_iff_atom (Or.inl hx)).mp hac
  have hb := (same_iff_atom (Or.inr (hc ▸ hx))).mp hbc
  exact (same_iff_atom (Or.inl hx)).mpr (hc.trans hb.symm)

lemma sameList_of_sameList {xs ys zs : List Json} (hxs : xs.all hashable = true)
    (hxz : sameList xs zs = true) (hyz : sameList ys zs = true) : sameList xs ys = true := by
  induction xs generalizing ys zs with
  | nil =>
    cases zs with
    | nil => cases ys with
      | nil => rfl
      | cons y ys => simp [sameList] at hyz
    | cons z zs => simp [sameList] at hxz
  | cons x xs ih =>
    cases zs with
    | nil => simp [sameList] at hxz
    | cons z zs => cases ys with
      | nil => simp [sameList] at hyz
      | cons y ys =>
        simp only [sameList, List.all_cons, Bool.and_eq_true] at hxs hxz hyz ⊢
        exact ⟨same_of_same_same hxs.1 hxz.1 hyz.1, ih hxs.2 hxz.2 hyz.2⟩

lemma eq_str_of_isStr {v : Json} {t : String} (h : v.isStr t = true) : v = .str t := by
  cases v <;> simp_all [isStr]

lemma setField_eq (k : String) (v : Json) (fields : List (String × Json)) :
    setField k v fields = setItem k v fields := by
  induction fields with
  | nil => rfl
  | cons p rest ih => rw [setField, setItem, ih]

@[simp] lemma field?_setField_self (k : String) (v : Json) (fields : List (String × Json)) :
    field? k (setField k v fields) = some v := by
  rw [setField_eq]
  exact (getItem_setItem k k v fields).trans (if_pos rfl)

lemma field?_setField_ne {j k : String} (v : Json) (fields : List (String × Json)) (h : j ≠ k) :
    field? j (setField k v fields) = field? j fields := by
  rw [setField_eq]
  exact (getItem_setItem j k v fields).trans (if_neg h.symm)

lemma setField_setField (k : String) (v w : Json) (fields : List (String × Json)) :
    setField k v (setField k w fields) = setField k v fields := by
  rw [setField_eq, setField_eq, setField_eq]
  exact setItem_setItem k v w fields

lemma modifyKey_eq_ok {k : String} {f : Json → Except PyErr Json} {fields : List (String × Json)}
    {v w : Json} (hv : field? k fields = some v) (h : modifyKey k f (.obj fields) = .ok w) :
    ∃ v', f v = .ok v' ∧ w = .obj (setField k v' fields) := by
  simp only [modifyKey, hv] at h
  obtain ⟨v', hv', h⟩ := bind_eq_ok.mp h
  exact ⟨v', hv', (Except.ok.inj h).symm⟩

lemma modifyKey_isOk {k : String} {f : Json → Except PyErr Json} {fields : List (String × Json)}
    {v : Json} (hv : field? k fields = some v) (h : ∃ v', f v = .ok v') :
    ∃ w, modifyKey k f (.obj fields) = .ok w := by
  obtain ⟨v', hv'⟩ := h
  refine ⟨.obj (setField k v' fields), ?_⟩
  simp only [modifyKey, hv]
  exact bind_eq_ok.mpr ⟨v', hv', rfl⟩

end Json

end Lib
