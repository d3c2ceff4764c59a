import FlCoordinator.Lib.JsonRoundTrip

/-!
# The interpreter

What the model leaves to the Python that runs the program: the rounding of float arithmetic, and
the texts on which its `json.loads` and `Json.loads` part, which keeps every number as written
and knows no limits.
-/

namespace Lib

namespace Json

/-! ### The floats of a value -/

mutual
/-- The value with another float for each finite one. -/
def mapFloats (f : Decimal → PyFloat) : Json → Json
  | float (.fin d) => float (f d)
  | arr xs => arr (mapFloatsList f xs)
  | obj fs => obj (mapFloatsFields f fs)
  | v => v
def mapFloatsList (f : Decimal → PyFloat) : List Json → List Json
  | [] => []
  | x :: xs => mapFloats f x :: mapFloatsList f xs
def mapFloatsFields (f : Decimal → PyFloat) : List (String × Json) → List (String × Json)
  | [] => []
  | (k, v) :: fs => (k, mapFloats f v) :: mapFloatsFields f fs
end

section MapFloats

variable {f : Decimal → PyFloat}

lemma mapFloatsFields_eq (fs : List (String × Json)) :
    mapFloatsFields f fs = fs.map (fun p => (p.1, mapFloats f p.2)) := by
  induction fs with
  | nil => rfl
  | cons p fs ih =>
    obtain ⟨k, v⟩ := p
    rw [mapFloatsFields, ih]
    rfl

lemma mapFloatsFields_keys (fs : List (String × Json)) :
    (mapFloatsFields f fs).map (·.1) = fs.map (·.1) := by
  rw [mapFloatsFields_eq, List.map_map]
  rfl

mutual
lemma mapFloats_fin : ∀ v : Json, mapFloats .fin v = v
  | null => rfl
  | bool _ => rfl
  | int _ => rfl
  | float (.fin _) => rfl
  | float .nan => rfl
  | float (.inf _) => rfl
  | str _ => rfl
  | arr xs => congrArg arr (mapFloatsList_fin xs)
  | obj fs => congrArg obj (mapFloatsFields_fin fs)
lemma mapFloatsList_fin : ∀ xs : List Json, mapFloatsList .fin xs = xs
  | [] => rfl
  | x :: xs => congrArg₂ List.cons (mapFloats_fin x) (mapFloatsList_fin xs)
lemma mapFloatsFields_fin : ∀ fs : List (String × Json), mapFloatsFields .fin fs = fs
  | [] => rfl
  | (k, v) :: fs => congrArg₂ List.cons (congrArg (Prod.mk k) (mapFloats_fin v))
      (mapFloatsFields_fin fs)
end

mutual
lemma plain_mapFloats : ∀ v : Json, Plain v → Plain (mapFloats f v)
  | null, h => h
  | bool _, h => h
  | int _, h => h
  | float (.fin _), _ => trivial
  | float .nan, h => h
  | float (.inf _), h => h
  | str _, h => h
  | arr xs, h => plainList_mapFloats xs h
  | obj fs, h => ⟨(mapFloatsFields_keys fs).symm ▸ h.1, plainFields_mapFloats fs h.2⟩
lemma plainList_mapFloats : ∀ xs : List Json, PlainList xs → PlainList (mapFloatsList f xs)
  | [], h => h
  | x :: xs, h => ⟨plain_mapFloats x h.1, plainList_mapFloats xs h.2⟩
lemma plainFields_mapFloats : ∀ fs : List (String × Json), PlainFields fs →
    PlainFields (mapFloatsFields f fs)
  | [], h => h
  | (_, v) :: fs, h => ⟨plain_mapFloats v h.1, plainFields_mapFloats fs h.2⟩
end

mutual
lemma mapFloats_sortKeys : ∀ v : Json, mapFloats f (sortKeys v) = sortKeys (mapFloats f v)
  | null => rfl
  | bool _ => rfl
  | int _ => rfl
  | float (.fin d) => by
    simp only [sortKeys, mapFloats]
  | float .nan => rfl
  | float (.inf _) => rfl
  | str _ => rfl
  | arr xs => congrArg arr (mapFloatsList_sortKeys xs)
  | obj fs => by
    have hsort : ∀ gs : List (String × Json),
        mapFloatsFields f (gs.insertionSort (fun p q => p.1 ≤ q.1)) =
          (mapFloatsFields f gs).insertionSort (fun p q => p.1 ≤ q.1) := by
      intro gs
      rw [mapFloatsFields_eq, mapFloatsFields_eq]
      apply List.map_insertionSort
      intro p _ q _
      exact Iff.rfl
    simp only [sortKeys, mapFloats, hsort, mapFloatsFields_sortKeys fs]
lemma mapFloatsList_sortKeys : ∀ xs : List Json,
    mapFloatsList f (sortKeysList xs) = sortKeysList (mapFloatsList f xs)
  | [] => rfl
  | x :: xs => congrArg₂ List.cons (mapFloats_sortKeys x) (mapFloatsList_sortKeys xs)
lemma mapFloatsFields_sortKeys : ∀ fs : List (String × Json),
    mapFloatsFields f (sortKeysFields fs) = sortKeysFields (mapFloatsFields f fs)
  | [] => rfl
  | (k, v) :: fs => congrArg₂ List.cons (congrArg (Prod.mk k) (mapFloats_sortKeys v))
      (mapFloatsFields_sortKeys fs)
end

mutual
lemma mapFloats_idem (hf : ∀ d d', f d = .fin d' → f d' = .fin d') :
    ∀ v : Json, mapFloats f (mapFloats f v) = mapFloats f v
  | null => rfl
  | bool _ => rfl
  | int _ => rfl
  | float (.fin d) => by
    rw [mapFloats]
    cases h : f d with
    | fin d' => rw [mapFloats, hf d d' h]
    | nan => rfl
    | inf neg => rfl
  | float .nan => rfl
  | float (.inf _) => rfl
  | str _ => rfl
  | arr xs => congrArg arr (mapFloatsList_idem hf xs)
  | obj fs => congrArg obj (mapFloatsFields_idem hf fs)
lemma mapFloatsList_idem (hf : ∀ d d', f d = .fin d' → f d' = .fin d') :
    ∀ xs : List Json, mapFloatsList f (mapFloatsList f xs) = mapFloatsList f xs
  | [] => rfl
  | x :: xs => congrArg₂ List.cons (mapFloats_idem hf x) (mapFloatsList_idem hf xs)
lemma mapFloatsFields_idem (hf : ∀ d d', f d = .fin d' → f d' = .fin d') :
    ∀ fs : List (String × Json), mapFloatsFields f (mapFloatsFields f fs) = mapFloatsFields f fs
  | [] => rfl
  | (k, v) :: fs => congrArg₂ List.cons (congrArg (Prod.mk k) (mapFloats_idem hf v))
      (mapFloatsFields_idem hf fs)
end

end MapFloats

/-- A string, or an integer of 64 bits. -/
def Modest : Json → Prop
  | str _ => True
  | int n => n.natAbs ≤ 2 ^ 64
  | _ => False

lemma Modest.plain {v : Json} (h : Modest v) : Plain v := by
  cases v with
  | str s => trivial
  | int n => trivial
  | null => exact h.elim
  | bool b => exact h.elim
  | float x => exact h.elim
  | arr xs => exact h.elim
  | obj fs => exact h.elim

lemma Modest.sortKeys {v : Json} (h : Modest v) : Json.sortKeys v = v := by
  cases v with
  | str s => rfl
  | int n => rfl
  | null => exact h.elim
  | bool b => exact h.elim
  | float x => exact h.elim
  | arr xs => exact h.elim
  | obj fs => exact h.elim

lemma Modest.mapFloats {v : Json} (h : Modest v) (f : Decimal → PyFloat) :
    Json.mapFloats f v = v := by
  cases v with
  | str s => rfl
  | int n => rfl
  | null => exact h.elim
  | bool b => exact h.elim
  | float x => exact h.elim
  | arr xs => exact h.elim
  | obj fs => exact h.elim

lemma sortKeys_flat {fs : List (String × Json)} (h : ∀ p ∈ fs, Modest p.2) :
    Json.sortKeys (obj fs) = obj (fs.insertionSort (fun p q => p.1 ≤ q.1)) := by
  have hsame : sortKeysFields fs = fs := by
    rw [sortKeysFields_eq]
    conv_rhs => rw [← List.map_id fs]
    apply List.map_congr_left
    intro p hp
    rw [(h p hp).sortKeys]
    rfl
  rw [Json.sortKeys, hsame]

end Json

open Json in
/-- An interpreter: how it rounds and sums floats, which float it reads for a number with a
fraction or an exponent, and what it makes of the texts that are beyond `Json.loads`: integers of
too many digits, nesting beyond its recursion limit, and lone surrogates. -/
structure Python where
  round : ℚ → ℚ
  sum : List ℚ → ℚ
  float : Decimal → PyFloat
  beyond : Bytes → Option (Except PyErr Json)
  round_mono : Monotone round
  round_near : ∀ q, |q| ≤ 4 → |round q - q| ≤ 1 / 2 ^ 52
  float_idem : ∀ d d', float d = .fin d' → float d' = .fin d'
  /-- A value that is read all the same is one that Python has. -/
  beyond_value : ∀ b v, beyond b = some (.ok v) → Plain v ∧ mapFloats float v = v
  /-- What `json.dumps` prints is read as printed, or refused. -/
  beyond_text : ∀ l v w, l.Readable → beyond (encodeChars (text l v)) ≠ some (.ok w)
  /-- A flat dict of strings and small integers is never refused. -/
  beyond_flat : ∀ l fs, l.Readable → (∀ p ∈ fs, Modest p.2) →
    beyond (encodeChars (text l (obj fs))) = none

namespace Python

open Json

variable (py : Python)

/-- `json.loads(b)` for bytes. -/
def loads (b : Bytes) : Except PyErr Json :=
  match py.beyond b with
  | some r => r
  | none => (Json.loads b).map (mapFloats py.float)

/-- Every float in the value is one that the interpreter has. -/
def Has (v : Json) : Prop := mapFloats py.float v = v

lemma round_bounds {q : ℚ} (h0 : -4 ≤ q) (h4 : q ≤ 4) :
    q - 1 / 2 ^ 52 ≤ py.round q ∧ py.round q ≤ q + 1 / 2 ^ 52 := by
  have hnear := abs_le.mp (py.round_near q (abs_le.mpr ⟨h0, h4⟩))
  exact ⟨by linarith [hnear.1], by linarith [hnear.2]⟩

variable {py} {b : Bytes} {v : Json}

lemma loads_value (h : py.loads b = .ok v) : Plain v ∧ py.Has v := by
  unfold loads at h
  split at h
  · rename_i r hr
    exact py.beyond_value b v (h ▸ hr)
  · obtain ⟨w, hw, rfl⟩ := map_eq_ok h
    exact ⟨plain_mapFloats w (Json.plain_loads hw), mapFloats_idem py.float_idem w⟩

lemma plain_loads (h : py.loads b = .ok v) : Plain v := (loads_value h).1

lemma loads_eq (hb : py.beyond b = none) (h : Json.loads b = .ok v) (hhas : py.Has v) :
    py.loads b = Json.loads b := by
  rw [loads, hb, h]
  exact congrArg Except.ok hhas

lemma loads_text_eq {l : Layout} (hl : l.Readable) (hv : Plain v) (hhas : py.Has v) {w : Json}
    (h : py.loads (encodeChars (text l v)) = .ok w) : w = v := by
  unfold loads at h
  split at h
  · rename_i r hr
    exact absurd (h ▸ hr) (py.beyond_text l v w hl)
  · rw [loads_text hl hv] at h
    exact (Except.ok.inj h).symm.trans hhas

lemma loads_flat {l : Layout} (hl : l.Readable) {fs : List (String × Json)}
    (hkeys : (fs.map (·.1)).Nodup) (h : ∀ p ∈ fs, Modest p.2) :
    py.loads (encodeChars (text l (obj fs))) = .ok (obj fs) := by
  have hv : Plain (obj fs) := plain_obj.mpr ⟨hkeys, fun p hp => (h p hp).plain⟩
  have hhas : mapFloatsFields py.float fs = fs := by
    rw [mapFloatsFields_eq]
    conv_rhs => rw [← List.map_id fs]
    apply List.map_congr_left
    intro p hp
    rw [(h p hp).mapFloats]
    rfl
  rw [loads, py.beyond_flat l fs hl h, loads_text hl hv]
  exact congrArg (fun gs => Except.ok (obj gs)) hhas

/-- Exact arithmetic, and no limits. -/
def exact : Python where
  round := id
  sum := List.sum
  float := .fin
  beyond := fun _ => none
  round_mono := monotone_id
  round_near := fun q _ => by simp
  float_idem := fun d d' h => h ▸ rfl
  beyond_value := fun b v h => by cases h
  beyond_text := fun l v w hl h => by cases h
  beyond_flat := fun l fs hl h => rfl

/-- Arithmetic without rounding. -/
structure Exact (py : Python) : Prop where
  round : ∀ q, py.round q = q
  sum : ∀ qs, py.sum qs = qs.sum

lemma exact_exact : Python.exact.Exact := ⟨fun _ => rfl, fun _ => rfl⟩

@[simp] lemma loads_exact : Python.exact.loads = Json.loads := by
  funext b
  have hid : mapFloats Python.exact.float = id := funext mapFloats_fin
  change (Json.loads b).map (mapFloats Python.exact.float) = Json.loads b
  rw [hid]
  cases Json.loads b <;> rfl

end Python

end Lib
