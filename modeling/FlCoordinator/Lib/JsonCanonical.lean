import FlCoordinator.Lib.Python

/-!
# Canonical JSON as a grammar

`Canonical` describes a text without saying how it is made or read: no blanks, the keys of each
object in increasing order, strings in ASCII escapes and numbers as Python prints them. These are
the texts that `json.dumps` prints for sorted keys and compact separators.
-/

namespace Lib

namespace Json

/-- One member of an object. -/
def memberText (p : String × List Char) : List Char := strText p.1 ++ ':' :: p.2

/-- Texts between brackets, with commas between them. -/
def enclosed (opening closing : Char) (parts : List (List Char)) : List Char :=
  opening :: ([','].intercalate parts ++ [closing])

/-- The text of an object from its keys and the texts of its values. -/
def objectText (fields : List (String × List Char)) : List Char :=
  enclosed '{' '}' (fields.map memberText)

/-- A compact JSON text with increasing keys, whose numbers are those of the interpreter. -/
inductive Canonical (py : Python) : List Char → Prop
  | null : Canonical py ['n', 'u', 'l', 'l']
  | yes : Canonical py ['t', 'r', 'u', 'e']
  | no : Canonical py ['f', 'a', 'l', 's', 'e']
  | int (n : ℤ) : Canonical py (intText n)
  | float (x : PyFloat) (has : py.Has (.float x)) : Canonical py (floatText x)
  | str (s : String) : Canonical py (strText s)
  | arr (items : List (List Char)) (all : ∀ t ∈ items, Canonical py t) :
      Canonical py (enclosed '[' ']' items)
  | obj (fields : List (String × List Char)) (increasing : (fields.map (·.1)).Pairwise (· < ·))
      (all : ∀ p ∈ fields, Canonical py p.2) : Canonical py (objectText fields)

section Canonical

variable {py : Python}

/-! ### Texts of lists and objects -/

lemma intercalate_cons (sep x : List Char) (xs : List (List Char)) :
    sep.intercalate (x :: xs) = x ++ xs.flatMap (sep ++ ·) := by
  induction xs generalizing x with
  | nil => simp [List.intercalate]
  | cons y ys ih =>
    have h := ih y
    simp only [List.intercalate, List.intersperse_cons_cons, List.flatten_cons] at h ⊢
    rw [h, List.flatMap_cons]
    simp only [List.append_assoc]

lemma moreItems_eq (xs : List Json) :
    moreItems compact xs = (xs.map (text compact)).flatMap ([','] ++ ·) := by
  induction xs with
  | nil => rfl
  | cons x xs ih =>
    rw [moreItems, ih, List.map_cons, List.flatMap_cons, List.append_assoc]
    rfl

lemma text_arr (xs : List Json) :
    text compact (arr xs) = enclosed '[' ']' (xs.map (text compact)) := by
  cases xs with
  | nil => rfl
  | cons x xs =>
    rw [text, moreItems_eq, enclosed, List.map_cons, intercalate_cons, List.append_assoc]

lemma moreFields_eq (fs : List (String × Json)) :
    moreFields compact fs =
      (fs.map fun p => memberText (p.1, text compact p.2)).flatMap ([','] ++ ·) := by
  induction fs with
  | nil => rfl
  | cons p fs ih =>
    obtain ⟨k, v⟩ := p
    rw [moreFields, ih, List.map_cons, List.flatMap_cons, memberText]
    simp only [List.append_assoc, List.cons_append]
    rfl

lemma text_obj (fs : List (String × Json)) :
    text compact (obj fs) = objectText (fs.map fun p => (p.1, text compact p.2)) := by
  rw [objectText, List.map_map]
  cases fs with
  | nil => rfl
  | cons p fs =>
    obtain ⟨k, v⟩ := p
    rw [text, moreFields_eq, enclosed, List.map_cons, intercalate_cons]
    simp only [memberText, Function.comp_apply, List.append_assoc, List.cons_append]
    rfl

lemma text_injective {v w : Json} (hv : Plain v) (hw : Plain w)
    (h : text compact v = text compact w) : v = w := by
  have hread := loads_text readable_compact hv
  rw [h, loads_text readable_compact hw] at hread
  exact (Except.ok.inj hread).symm

/-! ### A canonical text is the text of a value with sorted keys -/

/-- A value that prints canonically as it is. -/
structure Sorted (py : Python) (v : Json) : Prop where
  plain : Plain v
  has : py.Has v
  sorted : sortKeys v = v

lemma sorted_items {items : List (List Char)}
    (h : ∀ t ∈ items, ∃ v, Sorted py v ∧ text compact v = t) :
    ∃ xs, xs.map (text compact) = items ∧ PlainList xs ∧ mapFloatsList py.float xs = xs ∧
      sortKeysList xs = xs := by
  induction items with
  | nil => exact ⟨[], rfl, trivial, rfl, rfl⟩
  | cons t items ih =>
    obtain ⟨⟨v, hv, rfl⟩, hrest⟩ := List.forall_mem_cons.mp h
    obtain ⟨xs, rfl, hplain, hhas, hsorted⟩ := ih hrest
    exact ⟨v :: xs, rfl, ⟨hv.plain, hplain⟩, congrArg₂ List.cons hv.has hhas,
      congrArg₂ List.cons hv.sorted hsorted⟩

lemma sorted_fields {fields : List (String × List Char)}
    (h : ∀ p ∈ fields, ∃ v, Sorted py v ∧ text compact v = p.2) :
    ∃ fs : List (String × Json), (fs.map fun p => (p.1, text compact p.2)) = fields ∧
      PlainFields fs ∧ mapFloatsFields py.float fs = fs ∧ sortKeysFields fs = fs := by
  induction fields with
  | nil => exact ⟨[], rfl, trivial, rfl, rfl⟩
  | cons p fields ih =>
    obtain ⟨k, t⟩ := p
    obtain ⟨⟨v, hv, htext⟩, hrest⟩ := List.forall_mem_cons.mp h
    obtain ⟨fs, rfl, hplain, hhas, hsorted⟩ := ih hrest
    refine ⟨(k, v) :: fs, ?_, ⟨hv.plain, hplain⟩, ?_, ?_⟩
    · rw [List.map_cons, htext]
    · rw [mapFloatsFields, hhas, show mapFloats py.float v = v from hv.has]
    · rw [sortKeysFields, hsorted, hv.sorted]

lemma sorted_obj {fs : List (String × Json)} (hinc : (fs.map (·.1)).Pairwise (· < ·))
    (hplain : PlainFields fs) (hhas : mapFloatsFields py.float fs = fs)
    (hsorted : sortKeysFields fs = fs) : Sorted py (obj fs) where
  plain := ⟨hinc.imp fun h => Std.ne_of_lt h, hplain⟩
  has := congrArg obj hhas
  sorted := by
    rw [sortKeys, hsorted]
    refine congrArg obj (List.Pairwise.insertionSort_eq ?_)
    exact (List.pairwise_map.mp hinc).imp fun h => Std.le_of_lt h

lemma Canonical.value {t : List Char} (h : Canonical py t) :
    ∃ v, Sorted py v ∧ text compact v = t := by
  induction h with
  | null => exact ⟨.null, ⟨trivial, rfl, rfl⟩, rfl⟩
  | yes => exact ⟨.bool true, ⟨trivial, rfl, rfl⟩, rfl⟩
  | no => exact ⟨.bool false, ⟨trivial, rfl, rfl⟩, rfl⟩
  | int n => exact ⟨.int n, ⟨trivial, rfl, rfl⟩, rfl⟩
  | float x has => exact ⟨.float x, ⟨trivial, has, rfl⟩, rfl⟩
  | str s => exact ⟨.str s, ⟨trivial, rfl, rfl⟩, rfl⟩
  | arr items all ih =>
    obtain ⟨xs, rfl, hplain, hhas, hsorted⟩ := sorted_items ih
    exact ⟨.arr xs, ⟨hplain, congrArg Json.arr hhas, congrArg Json.arr hsorted⟩, text_arr xs⟩
  | obj fields increasing all ih =>
    obtain ⟨fs, rfl, hplain, hhas, hsorted⟩ := sorted_fields ih
    rw [List.map_map] at increasing
    exact ⟨.obj fs, sorted_obj increasing hplain hhas hsorted, text_obj fs⟩

/-! ### The text of a value with sorted keys is canonical -/

lemma increasing_sortKeys {fs : List (String × Json)} (h : (fs.map (·.1)).Nodup) :
    ((fs.insertionSort fun p q => p.1 ≤ q.1).map (·.1)).Pairwise (· < ·) := by
  have hperm := (List.perm_insertionSort (fun p q : String × Json => p.1 ≤ q.1) fs).map (·.1)
  have hle : ((fs.insertionSort fun p q => p.1 ≤ q.1).map (·.1)).Pairwise (· ≤ ·) :=
    List.pairwise_map.mpr (List.pairwise_insertionSort (fun p q : String × Json => p.1 ≤ q.1) fs)
  exact hle.and (hperm.nodup_iff.mpr h) |>.imp fun hpq => Std.lt_of_le_of_ne hpq.1 hpq.2

mutual
lemma canonical_text : ∀ v : Json, Plain v → py.Has v → Canonical py (text compact (sortKeys v))
  | null, _, _ => .null
  | bool true, _, _ => .yes
  | bool false, _, _ => .no
  | int n, _, _ => .int n
  | float x, _, hhas => .float x hhas
  | str s, _, _ => .str s
  | arr xs, hplain, hhas => by
    have hall := canonical_texts xs hplain (arr.inj hhas)
    rw [sortKeys, text_arr]
    apply Canonical.arr
    intro t ht
    obtain ⟨v, hv, rfl⟩ := List.mem_map.mp ht
    exact hall v hv
  | obj fs, hplain, hhas => by
    have hall := canonical_members fs hplain.2 (obj.inj hhas)
    rw [sortKeys, text_obj]
    apply Canonical.obj
    · rw [List.map_map]
      exact increasing_sortKeys (sortKeysFields_keys fs ▸ hplain.1)
    · intro p hp
      obtain ⟨q, hq, rfl⟩ := List.mem_map.mp hp
      exact hall q ((List.perm_insertionSort _ _).mem_iff.mp hq)
lemma canonical_texts : ∀ xs : List Json, PlainList xs → mapFloatsList py.float xs = xs →
    ∀ v ∈ sortKeysList xs, Canonical py (text compact v)
  | [], _, _ => by
    intro v hv
    cases hv
  | x :: xs, hplain, hhas => by
    obtain ⟨hx, hxs⟩ := List.cons.inj hhas
    exact List.forall_mem_cons.mpr
      ⟨canonical_text x hplain.1 hx, canonical_texts xs hplain.2 hxs⟩
lemma canonical_members : ∀ fs : List (String × Json), PlainFields fs →
    mapFloatsFields py.float fs = fs → ∀ p ∈ sortKeysFields fs, Canonical py (text compact p.2)
  | [], _, _ => by
    intro p hp
    cases hp
  | (k, v) :: fs, hplain, hhas => by
    obtain ⟨hv, hfs⟩ := List.cons.inj hhas
    exact List.forall_mem_cons.mpr
      ⟨canonical_text v hplain.1 (Prod.mk.inj hv).2, canonical_members fs hplain.2 hfs⟩
end

/-- The members of an object: their keys increase and their values are canonical. -/
structure CanonicalFields (py : Python) (fields : List (String × List Char)) : Prop where
  increasing : (fields.map (·.1)).Pairwise (· < ·)
  all : ∀ p ∈ fields, Canonical py p.2

/-- Canonical members are those of a value with sorted keys. -/
lemma CanonicalFields.value {fields : List (String × List Char)} (h : CanonicalFields py fields) :
    ∃ fs : List (String × Json), Sorted py (obj fs) ∧
      (fs.map fun p => (p.1, text compact p.2)) = fields := by
  obtain ⟨fs, rfl, hplain, hhas, hsorted⟩ := sorted_fields fun p hp => (h.all p hp).value
  have hinc := h.increasing
  rw [List.map_map] at hinc
  exact ⟨fs, sorted_obj hinc hplain hhas hsorted, rfl⟩

lemma canonicalFields_sortKeys {fs : List (String × Json)} (hplain : Plain (obj fs))
    (hhas : py.Has (obj fs)) :
    ∃ gs, sortKeys (obj fs) = obj gs ∧
      CanonicalFields py (gs.map fun p => (p.1, text compact p.2)) := by
  refine ⟨_, rfl, ?_, fun p hp => ?_⟩
  · rw [List.map_map]
    exact increasing_sortKeys (sortKeysFields_keys fs ▸ hplain.1)
  · obtain ⟨q, hq, rfl⟩ := List.mem_map.mp hp
    exact canonical_members fs hplain.2 (obj.inj hhas) q
      ((List.perm_insertionSort _ _).mem_iff.mp hq)

/-- The grammar is exactly what printing with sorted keys gives. -/
theorem canonical_iff {t : List Char} :
    Canonical py t ↔ ∃ v, Plain v ∧ py.Has v ∧ text compact (sortKeys v) = t := by
  constructor
  · intro h
    obtain ⟨v, hv, rfl⟩ := h.value
    exact ⟨v, hv.plain, hv.has, by rw [hv.sorted]⟩
  · rintro ⟨v, hplain, hhas, rfl⟩
    exact canonical_text v hplain hhas

end Canonical

end Json

end Lib
