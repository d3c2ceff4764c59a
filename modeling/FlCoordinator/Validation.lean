import FlCoordinator.Lib.Words
import FlCoordinator.Dataset

/-!
# The validation set

The file that `examples/gen_validation.py` writes for the coordinator's scoring, over any type of
values: `fixed` is the format `.5f`. What `load_libsvm` reads of it is the matrix and the labels
that were written.
-/

namespace FlCoordinator

open Lib

section Writer

variable {W : Type} (fixed : W → List Char)

/-- `f"{j + 1}:{v:.5f}"`. -/
def featText (j : ℕ) (v : W) : List Char := Json.natText (j + 1) ++ ':' :: fixed v

/-- `int(yi)`, where `yi` comes from a comparison. -/
def labelText (yi : Bool) : List Char := if yi then ['1'] else ['0']

/-- The line of a row, without its end. -/
def validationLine (row : List W × Bool) : List Char :=
  labelText row.2 ++ ' ' :: List.intercalate [' '] (row.1.mapIdx (featText fixed))

/-- The file for the matrix `X` and the labels `y`. -/
def writeValidation (X : List (List W)) (y : List Bool) : List Char :=
  (X.zip y).flatMap (fun row => validationLine fixed row ++ ['\n'])

end Writer

section ReadBack

variable {V W : Type}

/-- The indices and values of a row, as they are written. -/
def featsOf (rounded : W → V) (x : List W) : List (ℤ × V) :=
  x.mapIdx (fun j v => ((j : ℤ) + 1, rounded v))

variable {float : List Char → Except PyErr V} {fixed : W → List Char} {rounded : W → V}

/-- A text of digits, points and minus signs. -/
def IsNumeral (cs : List Char) : Prop := ∀ c ∈ cs, c.isDigit = true ∨ c = '.' ∨ c = '-'

instance (cs : List Char) : Decidable (IsNumeral cs) :=
  inferInstanceAs (Decidable (∀ c ∈ cs, c.isDigit = true ∨ c = '.' ∨ c = '-'))

/-! ### Tokens -/

lemma isSpace_of_ascii {c : Char} (hlow : 32 < c.toNat) (hhigh : c.toNat < 127) :
    isSpace c = false := by
  rw [isSpace, decide_eq_false_iff_not]
  omega

lemma featText_token {j : ℕ} {v : W} (h : IsNumeral (fixed v)) :
    featText fixed j v ≠ [] ∧ ∀ c ∈ featText fixed j v, 32 < c.toNat ∧ c.toNat < 127 := by
  refine ⟨by simp [featText], fun c hc => ?_⟩
  have hdigit : ∀ c : Char, c.isDigit = true → 32 < c.toNat ∧ c.toNat < 127 := by
    intro c hc
    have hbounds := Json.isDigit_bounds hc
    omega
  rcases List.mem_append.mp hc with hc | hc
  · exact hdigit c (Json.isDigit_natText _ c hc)
  rcases List.mem_cons.mp hc with rfl | hc
  · decide
  rcases h c hc with hd | rfl | rfl
  · exact hdigit c hd
  · decide
  · decide

lemma parseToken_featText {j : ℕ} {v : W} (hvalue : float (fixed v) = .ok (rounded v))
    (h : IsNumeral (fixed v)) :
    parseToken float (featText fixed j v) = .ok ((j : ℤ) + 1, rounded v) := by
  have hindex : ':' ∉ Json.natText (j + 1) := fun hmem =>
    absurd (Json.isDigit_natText _ _ hmem) (by decide)
  have hfixed : ':' ∉ fixed v := fun hmem => by
    rcases h _ hmem with hd | hd | hd <;> exact absurd hd (by decide)
  have hsplit : (featText fixed j v).splitOn ':' = [Json.natText (j + 1), fixed v] := by
    rw [featText, List.splitOn_append_cons_self_of_not_mem hindex,
      List.splitOn_eq_singleton hfixed]
  rw [parseToken, hsplit]
  dsimp only
  rw [Json.intOfStr_natText, hvalue]
  rfl

lemma mapM_mapIdx {x : List W} {f : ℕ → W → List Char} {g : ℕ → W → ℤ × V}
    (h : ∀ j, ∀ v ∈ x, parseToken float (f j v) = .ok (g j v)) :
    (x.mapIdx f).mapM (parseToken float) = .ok (x.mapIdx g) := by
  induction x generalizing f g with
  | nil => rfl
  | cons v x ih =>
    have hrest := ih (f := fun j => f (j + 1)) (g := fun j => g (j + 1))
      fun j w hw => h (j + 1) w (List.mem_cons_of_mem _ hw)
    rw [List.mapIdx_cons, List.mapIdx_cons, List.mapM_cons, h 0 v List.mem_cons_self]
    change (List.mapM (parseToken float) _ >>= fun ts => Except.ok (g 0 v :: ts)) = _
    rw [hrest]
    rfl

lemma lastValue_of_mem {ps : List (ℤ × V)} (hkeys : (ps.map Prod.fst).Nodup) {k : ℤ} {v : V}
    (h : (k, v) ∈ ps) : lastValue k ps = some v := by
  induction ps with
  | nil => cases h
  | cons p ps ih =>
    rw [List.map_cons, List.nodup_cons] at hkeys
    rcases List.mem_cons.mp h with rfl | h
    · have hnone : ps.filter (fun p => p.1 = k) = [] := by
        rw [List.filter_eq_nil_iff]
        intro q hq heq
        exact hkeys.1 (List.mem_map.mpr ⟨q, hq, of_decide_eq_true heq⟩)
      rw [lastValue, List.filter_cons_of_pos (by simp), hnone]
      rfl
    · have hkey : k ∈ ps.map Prod.fst := List.mem_map.mpr ⟨(k, v), h, rfl⟩
      have hne : p.1 ≠ k := fun heq => hkeys.1 (heq ▸ hkey)
      rw [lastValue, List.filter_cons_of_neg (by simpa using hne)]
      exact ih hkeys.2 h

lemma keys_featsOf (x : List W) :
    (featsOf rounded x).map Prod.fst = (List.range x.length).map (fun j : ℕ => (j : ℤ) + 1) := by
  apply List.ext_getElem
  · simp [featsOf]
  · intro j h₁ h₂
    simp [featsOf]

lemma lastValue_featsOf {x : List W} {j : ℕ} (hj : j < x.length) :
    lastValue ((j : ℤ) + 1) (featsOf rounded x) = some (rounded x[j]) := by
  apply lastValue_of_mem
  · rw [keys_featsOf]
    exact List.nodup_range.map fun a b hab => by simpa using hab
  · exact List.mem_mapIdx.mpr ⟨j, hj, rfl⟩

lemma foldl_max_le {is : List ℤ} {m b : ℤ} (hm : m ≤ b) (h : ∀ i ∈ is, i ≤ b) :
    is.foldl max m ≤ b := by
  induction is generalizing m with
  | nil => exact hm
  | cons i is ih =>
    obtain ⟨hi, his⟩ := List.forall_mem_cons.mp h
    exact ih (max_le hm hi) his

variable [Zero V] [One V]

/-- The number that is written for a label. -/
def labelValue (yi : Bool) : V := if yi then 1 else 0

/-- What is relied on of `.5f` and `float`: a text of digits, points and minus signs, that is read
as the value to five places. -/
structure ReadsBack (float : List Char → Except PyErr V) (fixed : W → List Char) (rounded : W → V)
    (X : List (List W)) : Prop where
  label : ∀ yi, float (labelText yi) = .ok (labelValue yi)
  value : ∀ x ∈ X, ∀ v ∈ x, float (fixed v) = .ok (rounded v)
  numeral : ∀ x ∈ X, ∀ v ∈ x, IsNumeral (fixed v)

/-- What a written line says. -/
def rowOf (rounded : W → V) (row : List W × Bool) : V × List (ℤ × V) :=
  (labelValue row.2, featsOf rounded row.1)

/-! ### One line -/

lemma ascii_validationLine {row : List W × Bool} (h : ∀ v ∈ row.1, IsNumeral (fixed v)) :
    Json.Ascii (validationLine fixed row) := by
  refine Json.ascii_append.mpr ⟨?_, Json.ascii_cons.mpr ⟨by decide, Json.ascii_intercalate ?_⟩⟩
  · cases row.2 <;> simp [labelText, Json.Ascii]
  · intro w hw c hc
    obtain ⟨j, hj, rfl⟩ := List.mem_mapIdx.mp hw
    have hbounds := (featText_token (h _ (List.getElem_mem hj))).2 c hc
    omega

lemma isData_validationLine (row : List W × Bool) :
    isData (stripBoth isSpace (validationLine fixed row)) = true := by
  have hstart : ∃ c cs, validationLine fixed row = c :: cs ∧ isSpace c = false ∧
      ∀ ds, isData (c :: ds) = true := by
    unfold validationLine labelText
    cases row.2
    · exact ⟨'0', _, rfl, rfl, fun _ => rfl⟩
    · exact ⟨'1', _, rfl, rfl, fun _ => rfl⟩
  obtain ⟨c, cs, hline, hspace, hdata⟩ := hstart
  obtain ⟨ds, hds⟩ := stripBoth_cons hspace cs
  rw [hline, hds]
  exact hdata ds

lemma readRow_validationLine {X : List (List W)} (h : ReadsBack float fixed rounded X)
    {row : List W × Bool} (hrow : row.1 ∈ X) :
    readRow float (stripBoth isSpace (validationLine fixed row)) = .ok (rowOf rounded row) := by
  have hlabel : words (labelText row.2) = [labelText row.2] := by
    cases row.2 <;> exact words_of_noSpace (by simp [labelText]) (by decide)
  have htokens : ∀ w ∈ row.1.mapIdx (featText fixed), w ≠ [] ∧ ∀ c ∈ w, isSpace c = false := by
    intro w hw
    obtain ⟨j, hj, rfl⟩ := List.mem_mapIdx.mp hw
    obtain ⟨hne, hchars⟩ := featText_token (j := j) (h.numeral _ hrow _ (List.getElem_mem hj))
    exact ⟨hne, fun c hc => isSpace_of_ascii (hchars c hc).1 (hchars c hc).2⟩
  have hwords : words (stripBoth isSpace (validationLine fixed row)) =
      labelText row.2 :: row.1.mapIdx (featText fixed) := by
    rw [words_stripBoth, validationLine, words_append_cons _ _ rfl, hlabel,
      words_intercalate htokens]
    rfl
  have hfeats : (row.1.mapIdx (featText fixed)).mapM (parseToken float) =
      .ok (featsOf rounded row.1) :=
    mapM_mapIdx fun j v hv => parseToken_featText (h.value _ hrow v hv) (h.numeral _ hrow v hv)
  rw [readRow, hwords]
  dsimp only
  rw [h.label, hfeats]
  rfl

/-! ### The file -/

lemma mapM_readRow {X : List (List W)} (h : ReadsBack float fixed rounded X)
    {rows : List (List W × Bool)} (hrows : ∀ row ∈ rows, row.1 ∈ X) :
    (((rows.map (validationLine fixed)).map (stripBoth isSpace)).filter isData).mapM
      (readRow float) = .ok (rows.map (rowOf rounded)) := by
  induction rows with
  | nil => rfl
  | cons row rows ih =>
    obtain ⟨hrow, hrest⟩ := List.forall_mem_cons.mp hrows
    rw [List.map_cons, List.map_cons, List.filter_cons_of_pos (isData_validationLine row),
      List.mapM_cons, readRow_validationLine h hrow]
    change (List.mapM (readRow float) _ >>= fun rs => Except.ok (rowOf rounded row :: rs)) = _
    rw [ih hrest]
    rfl

/-- The lines of the file say what was written. -/
lemma readRows_writeValidation {X : List (List W)} (h : ReadsBack float fixed rounded X)
    (y : List Bool) : readRows float (encodeChars (writeValidation fixed X y)) =
      .ok ((X.zip y).map (rowOf rounded)) := by
  have hmem : ∀ row ∈ X.zip y, row.1 ∈ X := fun row hrow => (List.of_mem_zip hrow).1
  have hascii : ∀ line ∈ (X.zip y).map (validationLine fixed), Json.Ascii line := by
    intro line hline
    obtain ⟨row, hrow, rfl⟩ := List.mem_map.mp hline
    exact ascii_validationLine (h.numeral _ (hmem row hrow))
  have htext : writeValidation fixed X y =
      ((X.zip y).map (validationLine fixed)).flatMap (· ++ ['\n']) := by
    rw [writeValidation, List.flatMap_map]
  have hsmall : ∀ c ∈ writeValidation fixed X y, c.toNat < 128 := by
    rw [htext]
    intro c hc
    obtain ⟨line, hline, hc⟩ := List.mem_flatMap.mp hc
    rcases List.mem_append.mp hc with hc | hc
    · exact (hascii line hline c hc).2.trans (by decide)
    · rw [List.mem_singleton.mp hc]
      decide
  rw [readRows, Json.decodeUtf8_encodeChars hsmall]
  dsimp only
  -- The empty text after the last line end is skipped.
  rw [htext, textLines_flatMap hascii, List.map_append, List.filter_append]
  have hend : (([[]] : List (List Char)).map (stripBoth isSpace)).filter isData = [] := rfl
  rw [hend, List.append_nil]
  exact mapM_readRow h hmem

/-! ### The matrix -/

lemma mem_indices_rowOf {rows : List (List W × Bool)} {i : ℤ} :
    i ∈ indicesOf (rows.map (rowOf rounded)) ↔
      ∃ row ∈ rows, ∃ j < row.1.length, i = (j : ℤ) + 1 := by
  rw [mem_indicesOf]
  constructor
  · rintro ⟨r, hr, hi⟩
    obtain ⟨row, hrow, rfl⟩ := List.mem_map.mp hr
    rw [rowOf, keys_featsOf] at hi
    obtain ⟨j, hj, rfl⟩ := List.mem_map.mp hi
    exact ⟨row, hrow, j, List.mem_range.mp hj, rfl⟩
  · rintro ⟨row, hrow, j, hj, rfl⟩
    refine ⟨rowOf rounded row, List.mem_map_of_mem hrow, ?_⟩
    rw [rowOf, keys_featsOf]
    exact List.mem_map.mpr ⟨j, List.mem_range.mpr hj, rfl⟩

lemma widthOf_rowOf {rows : List (List W × Bool)} {d : ℕ} (hne : rows ≠ [])
    (hwidth : ∀ row ∈ rows, row.1.length = d) : widthOf (rows.map (rowOf rounded)) = d := by
  apply le_antisymm
  · apply foldl_max_le (Int.natCast_nonneg d)
    intro i hi
    obtain ⟨row, hrow, j, hj, rfl⟩ := mem_indices_rowOf.mp hi
    rw [hwidth row hrow] at hj
    omega
  · obtain ⟨row, hrow⟩ := List.exists_mem_of_ne_nil rows hne
    rcases Nat.eq_zero_or_pos d with rfl | hd
    · exact (foldl_max_bounds _ 0).1
    · apply le_widthOf
      rw [mem_indices_rowOf]
      exact ⟨row, hrow, d - 1, by rw [hwidth row hrow]; omega, by omega⟩

lemma Faithful.matrix_eq {rows : List (List W × Bool)} {d : ℕ} {matrix : List (List V)}
    {labels : List V} (h : Faithful (rows.map (rowOf rounded)) matrix labels)
    (hwidth : ∀ row ∈ rows, row.1.length = d) :
    matrix = rows.map (fun row => row.1.map rounded) := by
  apply List.ext_getElem
  · rw [h.height, List.length_map, List.length_map]
  · intro r hr hr'
    have hin : r < rows.length := by simpa using hr'
    have hrow := hwidth rows[r] (List.getElem_mem hin)
    have hlength := h.width matrix[r] (List.getElem_mem hr)
    rw [widthOf_rowOf (List.ne_nil_of_length_pos (Nat.zero_lt_of_lt hin)) hwidth] at hlength
    rw [List.getElem_map]
    apply List.ext_getElem
    · rw [List.length_map]
      omega
    · intro j hj hj'
      have hj'' : j < rows[r].1.length := by simpa using hj'
      have hentry := h.entries r (rowOf rounded rows[r]) matrix[r]
        (by rw [List.getElem?_map, List.getElem?_eq_getElem hin]; rfl)
        (List.getElem?_eq_getElem hr) j hj
      rw [rowOf, lastValue_featsOf hj'', List.getElem?_eq_getElem hj] at hentry
      rw [List.getElem_map]
      exact Option.some.inj hentry

/-- What the script writes is read back by `load_libsvm`: a row for each row, each as wide as it
was, with the values to five places, and the labels. -/
theorem loadLibsvm_writeValidation {X : List (List W)} {y : List Bool} {d : ℕ}
    (h : ReadsBack float fixed rounded X) (hheight : X.length = y.length)
    (hwidth : ∀ x ∈ X, x.length = d) :
    loadLibsvm float (encodeChars (writeValidation fixed X y)) =
      .ok (X.map (List.map rounded), y.map labelValue) := by
  have hrows : ∀ row ∈ X.zip y, row.1.length = d := fun row hrow =>
    hwidth _ (List.of_mem_zip hrow).1
  have hpos : ∀ i ∈ indicesOf ((X.zip y).map (rowOf rounded)), 1 ≤ i := by
    intro i hi
    obtain ⟨row, hrow, j, hj, rfl⟩ := mem_indices_rowOf.mp hi
    omega
  obtain ⟨matrix, hmatrix⟩ := matrix_isOk.mpr fun i hi => by
    have hnonneg : 0 ≤ widthOf ((X.zip y).map (rowOf rounded)) := (foldl_max_bounds _ 0).1
    have := hpos i hi
    omega
  have hX : matrix = X.map (List.map rounded) := by
    rw [(faithful_of_positive hmatrix hpos).matrix_eq hrows]
    have hfst : (X.zip y).map Prod.fst = X := List.map_fst_zip hheight.le
    nth_rewrite 2 [← hfst]
    rw [List.map_map]
    rfl
  have hy : ((X.zip y).map (rowOf rounded)).map Prod.fst = y.map (labelValue (V := V)) := by
    have hsnd : (X.zip y).map Prod.snd = y := List.map_snd_zip hheight.ge
    nth_rewrite 2 [← hsnd]
    rw [List.map_map, List.map_map]
    rfl
  exact loadLibsvm_eq_ok.mpr ⟨_, readRows_writeValidation h y, hX ▸ hmatrix, hy.symm⟩

end ReadBack

/-- `f"{v:.5f}"` of a whole number of hundred-thousandths. -/
def fixedText (n : ℤ) : List Char :=
  (if n < 0 then ['-'] else []) ++ Json.natText (n.natAbs / 100000) ++
    '.' :: (Json.natText (100000 + n.natAbs % 100000)).drop 1

/-- Reads a numeral with a point in it as `float` does. -/
def floatOfNumeral (cs : List Char) : Except PyErr ℚ :=
  match cs.splitOn '.' with
  | [whole, places] =>
    (Json.intOfStr (String.ofList (whole ++ places))).map (fun n => n / 10 ^ places.length)
  | _ => floatOfInt cs

/-- Two rows of two values. -/
theorem loadLibsvm_writeValidation_two :
    loadLibsvm floatOfNumeral
        (encodeChars (writeValidation fixedText [[150000, -25000], [-3, 0]] [true, false])) =
      .ok ([[3 / 2, -1 / 4], [-3 / 100000, 0]], [1, 0]) := by
  have h : ReadsBack floatOfNumeral fixedText (fun n : ℤ => (n : ℚ) / 100000)
      [[150000, -25000], [-3, 0]] :=
    { label := by decide +kernel
      value := by decide +kernel
      numeral := by decide +kernel }
  have hread := loadLibsvm_writeValidation (y := [true, false]) (d := 2) h rfl (by decide)
  rw [hread]
  norm_num [labelValue]

end FlCoordinator
