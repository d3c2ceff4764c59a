import FlCoordinator.Lib.Dict
import FlCoordinator.Lib.JsonText

/-!
# The libsvm loader

`load_libsvm` of `flproto/dataset.py`, over any type of values: `float` reads a label or a value.
The columns of the matrix are filled with the index arithmetic of Python and numpy.
-/

namespace FlCoordinator

open Lib

section Loader

variable {V : Type} (float : List Char → Except PyErr V)

/-- `idx_s, val_s = tok.split(":")`, both read. -/
def parseToken (tok : List Char) : Except PyErr (ℤ × V) :=
  match tok.splitOn ':' with
  | [idx, val] => do
    let i ← Json.intOfStr (String.ofList idx)
    let v ← float val
    .ok (i, v)
  | _ => .error (.valueError "expected 2 values to unpack")

/-- One token of a row: its value goes into the row's dict. -/
def readToken (st : List (ℤ × V) × ℤ) (tok : List Char) : Except PyErr (List (ℤ × V) × ℤ) := do
  let t ← parseToken float tok
  .ok (setItem t.1 t.2 st.1, if st.2 < t.1 then t.1 else st.2)

/-- What the loop over the lines has collected. -/
structure Loaded (V : Type) where
  rows : List (List (ℤ × V))
  labels : List V
  maxIndex : ℤ

/-- Blank lines and comments are skipped. -/
def isData : List Char → Bool
  | [] => false
  | '#' :: _ => false
  | _ => true

/-- One line of the file. -/
def readLine (st : Loaded V) (line : List Char) : Except PyErr (Loaded V) :=
  let line := stripBoth isSpace line
  if isData line then
    match words line with
    | [] => .error .indexError
    | label :: toks => do
      let y ← float label
      let row ← toks.foldlM (readToken float) ([], st.maxIndex)
      .ok { rows := st.rows ++ [row.1], labels := st.labels ++ [y], maxIndex := row.2 }
  else .ok st

/-- `x[j] = v` on a row of the matrix: negative places count from its end. -/
def setColumn (x : List V) (j : ℤ) (v : V) : Except PyErr (List V) :=
  if 0 ≤ j ∧ j < x.length then .ok (x.set j.toNat v)
  else if -x.length ≤ j ∧ j < 0 then .ok (x.set (j + x.length).toNat v)
  else .error .indexError

/-- The items of a row's dict, written one after the other. -/
def fillRow (x : List V) (feats : List (ℤ × V)) : Except PyErr (List V) :=
  feats.foldlM (fun x p => setColumn x (p.1 - 1) p.2) x

/-- `load_libsvm` on the bytes of the file: the matrix and the labels. -/
def loadLibsvm [Zero V] (file : Bytes) : Except PyErr (List (List V) × List V) :=
  match Json.decodeUtf8 file with
  | none => .error .unicodeDecodeError
  | some text => do
    let st ← (textLines text).foldlM (readLine float) { rows := [], labels := [], maxIndex := 0 }
    let matrix ← st.rows.mapM (fillRow (List.replicate st.maxIndex.toNat 0))
    .ok (matrix, st.labels)

/-! ### What a file says -/

/-- A data line: its label, and its indices and values in their order. -/
def readRow (line : List Char) : Except PyErr (V × List (ℤ × V)) :=
  match words line with
  | [] => .error .indexError
  | label :: toks => do
    let y ← float label
    let ts ← toks.mapM (parseToken float)
    .ok (y, ts)

/-- The data lines of a file, without dicts and without a matrix. -/
def readRows (file : Bytes) : Except PyErr (List (V × List (ℤ × V))) :=
  match Json.decodeUtf8 file with
  | none => .error .unicodeDecodeError
  | some text =>
    (((textLines text).map (stripBoth isSpace)).filter isData).mapM (readRow float)

variable {float}

/-- The indices of the file. -/
def indicesOf (rows : List (V × List (ℤ × V))) : List ℤ :=
  rows.flatMap (fun row => row.2.map Prod.fst)

/-- The largest index, and 0 at least. -/
def widthOf (rows : List (V × List (ℤ × V))) : ℤ := (indicesOf rows).foldl max 0

/-- The matrix and the labels are those of the rows. -/
structure Faithful [Zero V] (rows : List (V × List (ℤ × V))) (matrix : List (List V))
    (labels : List V) :
    Prop where
  labels : labels = rows.map Prod.fst
  height : matrix.length = rows.length
  width : ∀ x ∈ matrix, (x.length : ℤ) = widthOf rows
  range : ∀ i ∈ indicesOf rows, 1 ≤ i ∧ i ≤ widthOf rows
  entries : ∀ (r : ℕ) row x, rows[r]? = some row → matrix[r]? = some x →
    ∀ j < x.length, x[j]? = some ((lastValue ((j : ℤ) + 1) row.2).getD 0)

lemma foldlM_readToken (toks : List (List Char)) (d : List (ℤ × V)) (m : ℤ) :
    toks.foldlM (readToken float) (d, m) = (toks.mapM (parseToken float)).map (fun ts =>
      (setItems ts d, (ts.map Prod.fst).foldl max m)) := by
  induction toks generalizing d m with
  | nil => rfl
  | cons tok toks ih =>
    rw [List.foldlM_cons, List.mapM_cons]
    cases htok : parseToken float tok with
    | error e => simp only [readToken, htok]; rfl
    | ok t =>
      have hstep : readToken float (d, m) tok = .ok (setItem t.1 t.2 d, max m t.1) := by
        have hmax : max m t.1 = if m < t.1 then t.1 else m := by
          rw [max_def]
          split_ifs <;> omega
        rw [hmax, readToken, htok]
        rfl
      rw [hstep]
      change toks.foldlM (readToken float) _ = _
      rw [ih]
      change _ = Except.map _ (toks.mapM (parseToken float) >>= fun ts => Except.ok (t :: ts))
      cases toks.mapM (parseToken float) <;> rfl

/-- The dict of a row. -/
def dictRow (row : V × List (ℤ × V)) : List (ℤ × V) := setItems row.2 []

lemma readLine_data {st : Loaded V} {line : List Char}
    (hdata : isData (stripBoth isSpace line) = true) :
    readLine float st line = (readRow float (stripBoth isSpace line)).map (fun row =>
      { rows := st.rows ++ [dictRow row]
        labels := st.labels ++ [row.1]
        maxIndex := (row.2.map Prod.fst).foldl max st.maxIndex }) := by
  unfold readLine readRow
  rw [if_pos hdata]
  cases words (stripBoth isSpace line) with
  | nil => rfl
  | cons label toks =>
    dsimp only
    rw [foldlM_readToken]
    cases float label with
    | error e => rfl
    | ok y => cases toks.mapM (parseToken float) <;> rfl

lemma foldlM_readLine (lines : List (List Char)) (st : Loaded V) :
    lines.foldlM (readLine float) st =
      (((lines.map (stripBoth isSpace)).filter isData).mapM (readRow float)).map (fun rows =>
        { rows := st.rows ++ rows.map dictRow
          labels := st.labels ++ rows.map Prod.fst
          maxIndex := (indicesOf rows).foldl max st.maxIndex }) := by
  induction lines generalizing st with
  | nil =>
    obtain ⟨rows, labels, maxIndex⟩ := st
    change Except.ok _ = Except.ok _
    simp [indicesOf]
  | cons line lines ih =>
    rw [List.foldlM_cons, List.map_cons]
    by_cases hdata : isData (stripBoth isSpace line) = true
    · rw [List.filter_cons_of_pos hdata, List.mapM_cons, readLine_data hdata]
      cases readRow float (stripBoth isSpace line) with
      | error e => rfl
      | ok row =>
        change lines.foldlM (readLine float) _ = _
        rw [ih]
        change _ = Except.map _ ((((lines.map (stripBoth isSpace)).filter isData).mapM
          (readRow float)) >>= fun rows => Except.ok (row :: rows))
        cases ((lines.map (stripBoth isSpace)).filter isData).mapM (readRow float) with
        | error e => rfl
        | ok rows =>
          change Except.ok _ = Except.ok _
          simp [indicesOf, List.foldl_append]
    · rw [List.filter_cons_of_neg hdata]
      have hskip : readLine float st line = .ok st := by
        unfold readLine
        rw [if_neg hdata]
      rw [hskip]
      exact ih st

/-- The loader in two steps: the rows of the file, and the matrix of their dicts. -/
lemma loadLibsvm_eq [Zero V] (file : Bytes) :
    loadLibsvm float file = readRows float file >>= fun rows =>
      (rows.map dictRow).mapM (fillRow (List.replicate (widthOf rows).toNat 0)) >>= fun matrix =>
        .ok (matrix, rows.map Prod.fst) := by
  unfold loadLibsvm readRows
  cases Json.decodeUtf8 file with
  | none => rfl
  | some text =>
    dsimp only
    rw [foldlM_readLine]
    cases (((textLines text).map (stripBoth isSpace)).filter isData).mapM (readRow float) <;> rfl

lemma loadLibsvm_eq_ok [Zero V] {file : Bytes} {matrix : List (List V)} {labels : List V} :
    loadLibsvm float file = .ok (matrix, labels) ↔ ∃ rows, readRows float file = .ok rows ∧
      (rows.map dictRow).mapM (fillRow (List.replicate (widthOf rows).toNat 0)) = .ok matrix ∧
      labels = rows.map Prod.fst := by
  rw [loadLibsvm_eq, bind_eq_ok]
  constructor
  · rintro ⟨rows, hrows, h⟩
    obtain ⟨m, hm, h⟩ := bind_eq_ok.mp h
    have hpair := Prod.mk.inj (Except.ok.inj h)
    exact ⟨rows, hrows, hpair.1 ▸ hm, hpair.2.symm⟩
  · rintro ⟨rows, hrows, hm, rfl⟩
    exact ⟨rows, hrows, bind_eq_ok.mpr ⟨matrix, hm, rfl⟩⟩

/-! ### The matrix -/

lemma setColumn_isOk {x : List V} {j : ℤ} {v : V} :
    (∃ x', setColumn x j v = .ok x') ↔ -x.length ≤ j ∧ j < x.length := by
  unfold setColumn
  split_ifs with hin hneg
  · exact ⟨fun _ => ⟨by omega, hin.2⟩, fun _ => ⟨_, rfl⟩⟩
  · exact ⟨fun _ => ⟨hneg.1, by omega⟩, fun _ => ⟨_, rfl⟩⟩
  · constructor
    · rintro ⟨x', hx'⟩
      cases hx'
    · intro h
      exfalso
      omega

lemma length_setColumn {x x' : List V} {j : ℤ} {v : V} (h : setColumn x j v = .ok x') :
    x'.length = x.length := by
  unfold setColumn at h
  split_ifs at h
  · rw [← Except.ok.inj h, List.length_set]
  · rw [← Except.ok.inj h, List.length_set]

/-- A row is filled when all its places are in it, counted from either end. -/
lemma fillRow_isOk {feats : List (ℤ × V)} {x : List V} :
    (∃ x', fillRow x feats = .ok x') ↔
      ∀ p ∈ feats, -x.length ≤ p.1 - 1 ∧ p.1 - 1 < x.length := by
  induction feats generalizing x with
  | nil => exact ⟨fun _ p hp => absurd hp List.not_mem_nil, fun _ => ⟨x, rfl⟩⟩
  | cons p feats ih =>
    rw [List.forall_mem_cons, ← setColumn_isOk (v := p.2)]
    constructor
    · rintro ⟨x', h⟩
      obtain ⟨y, hy, h⟩ := bind_eq_ok.mp h
      rw [← length_setColumn hy]
      exact ⟨⟨y, hy⟩, ih.mp ⟨x', h⟩⟩
    · rintro ⟨⟨y, hy⟩, hrest⟩
      rw [← length_setColumn hy] at hrest
      obtain ⟨x', h⟩ := ih.mpr hrest
      exact ⟨x', bind_eq_ok.mpr ⟨y, hy, h⟩⟩

lemma fillRow_eq_ok {feats : List (ℤ × V)} {x x' : List V} (h : fillRow x feats = .ok x')
    (hpos : ∀ p ∈ feats, 1 ≤ p.1) (hkeys : (feats.map Prod.fst).Nodup) :
    x'.length = x.length ∧
      ∀ j < x.length, x'[j]? = (getItem ((j : ℤ) + 1) feats).or x[j]? := by
  induction feats generalizing x with
  | nil =>
    obtain rfl := Except.ok.inj h
    exact ⟨rfl, fun j _ => rfl⟩
  | cons p feats ih =>
    obtain ⟨y, hy, h⟩ := bind_eq_ok.mp h
    obtain ⟨hp, hpos⟩ := List.forall_mem_cons.mp hpos
    rw [List.map_cons, List.nodup_cons] at hkeys
    obtain ⟨hlength, hentries⟩ := ih h hpos hkeys.2
    have hset := length_setColumn hy
    rw [hset] at hlength hentries
    refine ⟨hlength, fun j hj => ?_⟩
    rw [hentries j hj, getItem_cons]
    have hplace : y = x.set (p.1 - 1).toNat p.2 := by
      change setColumn x (p.1 - 1) p.2 = .ok y at hy
      unfold setColumn at hy
      split_ifs at hy with hin hneg
      · exact (Except.ok.inj hy).symm
      · omega
    by_cases hkey : p.1 = (j : ℤ) + 1
    · have hnone : getItem ((j : ℤ) + 1) feats = none := by
        rw [getItem, Option.map_eq_none_iff, List.find?_eq_none]
        intro q hq heq
        exact hkeys.1 (hkey ▸ (of_decide_eq_true heq) ▸ List.mem_map_of_mem hq)
      have hj' : (p.1 - 1).toNat = j := by omega
      rw [if_pos hkey, hnone, hplace, hj', List.getElem?_set_self hj]
      rfl
    · have hj' : (p.1 - 1).toNat ≠ j := by omega
      rw [if_neg hkey, hplace, List.getElem?_set_ne hj']

/-! ### Which files are loaded as they are -/

lemma mem_indicesOf {rows : List (V × List (ℤ × V))} {i : ℤ} :
    i ∈ indicesOf rows ↔ ∃ row ∈ rows, i ∈ row.2.map Prod.fst := List.mem_flatMap

lemma mem_dictRow_keys {row : V × List (ℤ × V)} {i : ℤ} :
    i ∈ (dictRow row).map Prod.fst ↔ i ∈ row.2.map Prod.fst := by
  rw [dictRow, mem_keys_setItems]
  simp

lemma nodup_dictRow (row : V × List (ℤ × V)) : ((dictRow row).map Prod.fst).Nodup :=
  nodup_keys_setItems List.nodup_nil

lemma foldl_max_bounds (is : List ℤ) (m : ℤ) : m ≤ is.foldl max m ∧ ∀ i ∈ is, i ≤ is.foldl max m := by
  induction is generalizing m with
  | nil => simp
  | cons i is ih =>
    obtain ⟨hm, hall⟩ := ih (max m i)
    rw [List.foldl_cons]
    refine ⟨(le_max_left _ _).trans hm, fun j hj => ?_⟩
    rcases List.mem_cons.mp hj with rfl | hj
    · exact (le_max_right _ _).trans hm
    · exact hall j hj

lemma le_widthOf {rows : List (V × List (ℤ × V))} {i : ℤ} (h : i ∈ indicesOf rows) :
    i ≤ widthOf rows := (foldl_max_bounds _ 0).2 i h

variable [Zero V] {rows : List (V × List (ℤ × V))}

lemma length_zeros (rows : List (V × List (ℤ × V))) :
    ((List.replicate (widthOf rows).toNat (0 : V)).length : ℤ) = widthOf rows := by
  rw [List.length_replicate]
  exact Int.toNat_of_nonneg (foldl_max_bounds _ 0).1

lemma matrix_isOk :
    (∃ matrix, (rows.map dictRow).mapM (fillRow (List.replicate (widthOf rows).toNat (0 : V))) =
      .ok matrix) ↔ ∀ i ∈ indicesOf rows, 1 - widthOf rows ≤ i := by
  rw [mapM_isOk]
  constructor
  · intro h i hi
    obtain ⟨row, hrow, hi⟩ := mem_indicesOf.mp hi
    obtain ⟨p, hp, rfl⟩ := List.mem_map.mp (mem_dictRow_keys.mpr hi)
    have hbounds := fillRow_isOk.mp (h _ (List.mem_map_of_mem hrow)) p hp
    rw [length_zeros] at hbounds
    linarith [hbounds.1]
  · intro h feats hfeats
    obtain ⟨row, hrow, rfl⟩ := List.mem_map.mp hfeats
    apply fillRow_isOk.mpr
    intro p hp
    rw [length_zeros]
    have hi : p.1 ∈ indicesOf rows :=
      mem_indicesOf.mpr ⟨row, hrow, mem_dictRow_keys.mp (List.mem_map_of_mem hp)⟩
    have hlow := h p.1 hi
    have hhigh := le_widthOf hi
    constructor <;> linarith

lemma faithful_of_positive {matrix : List (List V)}
    (h : (rows.map dictRow).mapM (fillRow (List.replicate (widthOf rows).toNat 0)) = .ok matrix)
    (hpos : ∀ i ∈ indicesOf rows, 1 ≤ i) : Faithful rows matrix (rows.map Prod.fst) := by
  obtain ⟨hlength, hrows⟩ := mapM_getElem h
  rw [List.length_map] at hlength
  have hfilled : ∀ (r : ℕ) row x, rows[r]? = some row → matrix[r]? = some x →
      x.length = (List.replicate (widthOf rows).toNat (0 : V)).length ∧
      ∀ j < (List.replicate (widthOf rows).toNat (0 : V)).length,
        x[j]? = (getItem ((j : ℤ) + 1) (dictRow row)).or
          (List.replicate (widthOf rows).toNat (0 : V))[j]? := by
    intro r row x hrow hx
    have hfill := hrows r (dictRow row) x (by rw [List.getElem?_map, hrow]; rfl) hx
    apply fillRow_eq_ok hfill _ (nodup_dictRow row)
    intro p hp
    exact hpos p.1 (mem_indicesOf.mpr ⟨row, List.mem_of_getElem? hrow,
      mem_dictRow_keys.mp (List.mem_map_of_mem hp)⟩)
  exact
    { labels := rfl
      height := hlength
      width := by
        intro x hx
        obtain ⟨r, hr⟩ := List.mem_iff_getElem?.mp hx
        have hin : r < rows.length := by
          rw [← hlength]
          exact (List.getElem?_eq_some_iff.mp hr).1
        rw [(hfilled r rows[r] x (List.getElem?_eq_getElem hin) hr).1, length_zeros]
      range := fun i hi => ⟨hpos i hi, le_widthOf hi⟩
      entries := by
        intro r row x hrow hx j hj
        obtain ⟨hwidth, hentries⟩ := hfilled r row x hrow hx
        rw [hwidth] at hj
        rw [hentries j hj, dictRow, getItem_setItems, getItem_nil, Option.or_none]
        rw [List.length_replicate] at hj
        rw [List.getElem?_replicate, if_pos hj]
        cases lastValue ((j : ℤ) + 1) row.2 <;> rfl }

end Loader

/-- Reads integers as `float` does. -/
def floatOfInt (cs : List Char) : Except PyErr ℚ :=
  (Json.intOfStr (String.ofList cs)).map (fun n => n)

end FlCoordinator
