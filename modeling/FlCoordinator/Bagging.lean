import FlCoordinator.Lib.StableSort
import FlCoordinator.Provenance

/-!
# The merged model

What the bytes that a merge returns decode to: the heaviest model, with the trees of all of them.
-/

namespace FlCoordinator

open Lib

/-! ### The merge after its filter -/

section Parts

/-- `merge_xgboost_models` after its filter loop. -/
def mergeParsed (py : Python) (parsed : List Parsed) : Except PyErr (Bytes × MergeInfo) :=
  if parsed.isEmpty then .error (.valueError "No usable models to aggregate")
  else do
    let schemas ← distinctSchemas parsed
    if 1 < schemas.length then
      let texts ← schemas.mapM describeSchema
      .error (.valueError ("feature-schema mismatch across contributions: " ++
        " vs ".intercalate (texts.insertionSort (· ≤ ·))))
    else
      match byWeight parsed with
      | [] => .error (.valueError "No usable models to aggregate")
      | base :: rest =>
        let bagged ← bagTrees py base rest (totalWeight py parsed)
        let trees := bagged.take maxGlobalTrees
        let merged ← setTrees base.model trees
        .ok (Json.dumpsBytes merged,
          { numModels := parsed.length
            totalTrees := trees.length
            capped := decide (maxGlobalTrees < bagged.length) })

lemma mergeXgboostModels_parts (py : Python) (ws : List (Bytes × ℚ)) :
    mergeXgboostModels py ws = parseModels py ws >>= mergeParsed py := rfl

lemma mergeParsed_eq_ok {py : Python} {parsed : List Parsed} {bytes : Bytes} {info : MergeInfo}
    (h : mergeParsed py parsed = .ok (bytes, info)) :
    ∃ base rest bagged merged, byWeight parsed = base :: rest ∧
      bagTrees py base rest (totalWeight py parsed) = .ok bagged ∧
      setTrees base.model (bagged.take maxGlobalTrees) = .ok merged ∧
      bytes = Json.dumpsBytes merged ∧ info =
        { numModels := parsed.length
          totalTrees := (bagged.take maxGlobalTrees).length
          capped := decide (maxGlobalTrees < bagged.length) } := by
  unfold mergeParsed at h
  split_ifs at h
  obtain ⟨schemas, -, h⟩ := bind_eq_ok.mp h
  split_ifs at h
  · obtain ⟨texts, -, h⟩ := bind_eq_ok.mp h
    cases h
  · cases hsort : byWeight parsed with
    | nil =>
      rw [hsort] at h
      cases h
    | cons base rest =>
      simp only [hsort] at h
      obtain ⟨bagged, hbag, h⟩ := bind_eq_ok.mp h
      obtain ⟨merged, hset, h⟩ := bind_eq_ok.mp h
      have hout := Prod.mk.inj (Except.ok.inj h)
      exact ⟨base, rest, bagged, merged, rfl, hbag, hset, hout.1.symm, hout.2.symm⟩

end Parts

/-! ### Rewriting the base -/

section Rewriting

/-- The fields of `fs'` are those of `fs`, but for the ones named. -/
def SameBut (keys : List String) (fs fs' : List (String × Json)) : Prop :=
  ∀ k, k ∉ keys → Json.field? k fs' = Json.field? k fs

/-- `tree'` is the object `tree` with the id `i`. -/
def Renumbered (i : ℕ) (tree tree' : Json) : Prop :=
  ∃ fs fs', tree = .obj fs ∧ tree' = .obj fs' ∧
    Json.field? "id" fs' = some (.int i) ∧ SameBut ["id"] fs fs'

/-- The section `ms'` is `ms` with these trees, numbered in their order, and the arrays and counts
that go with them. -/
structure HoldsTrees (trees : List Json) (ms ms' : List (String × Json)) : Prop where
  numbered : ∃ ts, Json.field? "trees" ms' = some (.arr ts) ∧ ts.length = trees.length ∧
    ∀ i t, trees[i]? = some t → ∃ t', ts[i]? = some t' ∧ Renumbered i t t'
  treeInfo : Json.field? "tree_info" ms' = some (.arr (List.replicate trees.length (.int 0)))
  iterationIndptr : Json.field? "iteration_indptr" ms' =
    some (.arr ((List.range (trees.length + 1)).map (fun i => .int i)))
  numTrees : ∀ ps, Json.field? "gbtree_model_param" ms = some (.obj ps) →
    ∃ ps', Json.field? "gbtree_model_param" ms' = some (.obj ps') ∧
      Json.field? "num_trees" ps' = some (.str (natStr trees.length)) ∧
      SameBut ["num_trees"] ps ps'
  noParam : (∀ ps, Json.field? "gbtree_model_param" ms ≠ some (.obj ps)) →
    Json.field? "gbtree_model_param" ms' = Json.field? "gbtree_model_param" ms
  rest : SameBut ["trees", "tree_info", "iteration_indptr", "gbtree_model_param"] ms ms'

/-- `merged` is `model` with these trees, and nothing else changed on the way to them. -/
def Rewrites (model : Json) (trees : List Json) (merged : Json) : Prop :=
  ∃ fs ls bs ms source fs' ls' bs' ms' source',
    TreePath model fs ls bs ms source ∧ TreePath merged fs' ls' bs' ms' source' ∧
    SameBut ["learner"] fs fs' ∧ SameBut ["gradient_booster"] ls ls' ∧
    SameBut ["model"] bs bs' ∧ HoldsTrees trees ms ms'

lemma sameBut_setField (k : String) (v : Json) (fs : List (String × Json)) :
    SameBut [k] fs (Json.setField k v fs) := by
  intro j hj
  exact Json.field?_setField_ne v fs (by simpa using hj)

lemma SameBut.setField {keys : List String} {fs fs' : List (String × Json)}
    (h : SameBut keys fs fs') {k : String} (hk : k ∈ keys) (v : Json) :
    SameBut keys fs (Json.setField k v fs') := by
  intro j hj
  have hjk : j ≠ k := by
    rintro rfl
    exact hj hk
  rw [Json.field?_setField_ne v fs' hjk]
  exact h j hj

lemma renumber_getElem {trees : List Json} (hobj : ∀ t ∈ trees, ∃ fs, t = .obj fs) {i : ℕ}
    {t : Json} (h : trees[i]? = some t) :
    ∃ t', (renumber trees)[i]? = some t' ∧ Renumbered i t t' := by
  obtain ⟨fs, rfl⟩ := hobj t (List.mem_of_getElem? h)
  refine ⟨.obj (Json.setField "id" (.int i) fs), ?_, fs, _, rfl, rfl, ?_, ?_⟩
  · rw [renumber, List.getElem?_mapIdx, h]
    rfl
  · exact Json.field?_setField_self _ _ _
  · exact sameBut_setField _ _ _

lemma holdsTrees_setModelTrees {trees : List Json} {ms ms' : List (String × Json)}
    (hobj : ∀ t ∈ trees, ∃ fs, t = .obj fs)
    (h : setModelTrees trees (.obj ms) = .ok (.obj ms')) : HoldsTrees trees ms ms' := by
  let gs := Json.setField "iteration_indptr"
    (.arr ((List.range (trees.length + 1)).map (fun i => .int i)))
    (Json.setField "tree_info" (.arr (List.replicate trees.length (.int 0)))
      (Json.setField "trees" (.arr (renumber trees)) ms))
  have hparam : Json.field? "gbtree_model_param" gs = Json.field? "gbtree_model_param" ms := by
    rw [Json.field?_setField_ne _ _ (by decide), Json.field?_setField_ne _ _ (by decide),
      Json.field?_setField_ne _ _ (by decide)]
  have htrees : Json.field? "trees" gs = some (.arr (renumber trees)) := by
    rw [Json.field?_setField_ne _ _ (by decide), Json.field?_setField_ne _ _ (by decide),
      Json.field?_setField_self]
  have hinfo : Json.field? "tree_info" gs =
      some (.arr (List.replicate trees.length (.int 0))) := by
    rw [Json.field?_setField_ne _ _ (by decide), Json.field?_setField_self]
  have hptr : Json.field? "iteration_indptr" gs =
      some (.arr ((List.range (trees.length + 1)).map (fun i => .int i))) :=
    Json.field?_setField_self _ _ _
  have hlength : (renumber trees).length = trees.length := List.length_mapIdx
  have hsame : SameBut ["trees", "tree_info", "iteration_indptr", "gbtree_model_param"] ms gs := by
    have hrefl : SameBut ["trees", "tree_info", "iteration_indptr", "gbtree_model_param"] ms ms :=
      fun k _ => rfl
    exact ((hrefl.setField (by simp) _).setField (by simp) _).setField (by simp) _
  simp only [setModelTrees] at h
  split at h
  · rename_i ps hps
    obtain rfl := Json.obj.inj (Except.ok.inj h)
    change Json.field? "gbtree_model_param" gs = some (.obj ps) at hps
    have hother : ∀ k, k ≠ "gbtree_model_param" → Json.field? k (Json.setField
        "gbtree_model_param" (.obj (Json.setField "num_trees" (.str (natStr trees.length)) ps))
        gs) = Json.field? k gs := fun k hk => Json.field?_setField_ne _ _ hk
    exact
      { numbered := ⟨_, (hother _ (by decide)).trans htrees, hlength, fun i t ht =>
          renumber_getElem hobj ht⟩
        treeInfo := (hother _ (by decide)).trans hinfo
        iterationIndptr := (hother _ (by decide)).trans hptr
        numTrees := by
          intro qs hqs
          rw [← hparam, hps] at hqs
          obtain rfl := Json.obj.inj (Option.some.inj hqs)
          exact ⟨_, Json.field?_setField_self _ _ _, Json.field?_setField_self _ _ _,
            sameBut_setField _ _ _⟩
        noParam := by
          intro hno
          rw [hparam] at hps
          exact absurd hps (hno ps)
        rest := hsame.setField (by simp) _ }
  · rename_i hps
    obtain rfl := Json.obj.inj (Except.ok.inj h)
    change ∀ ps, Json.field? "gbtree_model_param" gs = some (.obj ps) → False at hps
    exact
      { numbered := ⟨_, htrees, hlength, fun i t ht => renumber_getElem hobj ht⟩
        treeInfo := hinfo
        iterationIndptr := hptr
        numTrees := by
          intro qs hqs
          rw [← hparam] at hqs
          exact absurd hqs (hps qs)
        noParam := fun _ => hparam
        rest := hsame }

lemma rewrites_setTrees {model merged source : Json} {trees : List Json}
    (hobj : ∀ t ∈ trees, ∃ fs, t = .obj fs) (hget : getTrees model = .ok source)
    (htruthy : source.truthy = true) (h : setTrees model trees = .ok merged) :
    Rewrites model trees merged := by
  obtain ⟨fs, ls, bs, ms, hpath⟩ := treePath_of_truthy hget htruthy
  obtain ⟨rfl, hl, hb, hi, -⟩ := id hpath
  obtain ⟨l', hl', rfl⟩ := Json.modifyKey_eq_ok hl h
  obtain ⟨b', hb', rfl⟩ := Json.modifyKey_eq_ok hb hl'
  obtain ⟨i', hi', rfl⟩ := Json.modifyKey_eq_ok hi hb'
  obtain ⟨ms', rfl⟩ := setModelTrees_obj hi'
  have hholds := holdsTrees_setModelTrees hobj hi'
  obtain ⟨ts, hts, -⟩ := hholds.numbered
  exact ⟨fs, ls, bs, ms, source, _, _, _, ms', .arr ts, hpath,
    ⟨rfl, Json.field?_setField_self _ _ _, Json.field?_setField_self _ _ _,
      Json.field?_setField_self _ _ _, hts⟩,
    sameBut_setField _ _ _, sameBut_setField _ _ _, sameBut_setField _ _ _, hholds⟩

end Rewriting

/-! ### Which trees -/

section Bags

/-- The trees of the model are an array of objects. -/
def HasTreeObjects (model : Json) : Prop :=
  ∃ trees, getTrees model = .ok (.arr trees) ∧ ∀ t ∈ trees, ∃ fs, t = .obj fs

/-- How many trees a lighter model gives. -/
def prefixLength (total : ℚ) (p : Parsed) : ℕ :=
  max 1 ⌊((treesOf p).length : ℚ) * p.weight / total⌋.toNat

/-- All trees of the base, and the first trees of the others. -/
def bagged (total : ℚ) (base : Parsed) (rest : List Parsed) : List Json :=
  treesOf base ++ (rest.map (fun p => (treesOf p).take (prefixLength total p))).flatten

def weightSum (ps : List Parsed) : ℚ := (ps.map (·.weight)).sum

/-- What a merge returns: the usable models heaviest first, equal weights in their order, the
first one as the base, and its trees and those of the others up to the cap. -/
structure MergeResult (py : Python) (ws : List (Bytes × ℚ)) (base : Parsed) (rest : List Parsed)
    (bytes : Bytes)
    (info : MergeInfo) : Prop where
  usable : (base :: rest).Perm (ws.filterMap (usable? py))
  descending : (base :: rest).Pairwise (fun p q => q.weight ≤ p.weight)
  stable : ∀ w, (base :: rest).filter (·.weight = w) =
    (ws.filterMap (usable? py)).filter (·.weight = w)
  prefixes : ∀ p ∈ rest, 1 ≤ prefixLength (weightSum (base :: rest)) p ∧
    prefixLength (weightSum (base :: rest)) p ≤ (treesOf p).length
  decoded : ∃ merged, Json.loads bytes = .ok merged ∧ Rewrites base.model
    ((bagged (weightSum (base :: rest)) base rest).take maxGlobalTrees) merged
  totalTrees : info.totalTrees =
    min maxGlobalTrees (bagged (weightSum (base :: rest)) base rest).length
  some : 1 ≤ info.totalTrees ∧ info.totalTrees ≤ maxGlobalTrees
  numModels : info.numModels = (ws.filterMap (usable? py)).length
  capped : info.capped = true ↔
    maxGlobalTrees < (bagged (weightSum (base :: rest)) base rest).length

variable {py : Python} {ws : List (Bytes × ℚ)} {ps : List Parsed}

lemma usable_pos {p : Parsed} (h : p ∈ ws.filterMap (usable? py)) : 0 < p.weight := by
  obtain ⟨e, -, hused⟩ := List.mem_filterMap.mp h
  obtain ⟨-, hweight, hpos, -⟩ := usable?_eq_some.mp hused
  rw [hweight]
  exact hpos

lemma weight_le_weightSum {p : Parsed} (hpos : ∀ q ∈ ps, 0 < q.weight) (hp : p ∈ ps) :
    p.weight ≤ weightSum ps := by
  apply List.single_le_sum
  · intro x hx
    obtain ⟨q, hq, rfl⟩ := List.mem_map.mp hx
    exact (hpos q hq).le
  · exact List.mem_map_of_mem hp

lemma totalWeight_eq (hexact : py.Exact) {p : Parsed} (hpos : ∀ q ∈ ps, 0 < q.weight) (hp : p ∈ ps) :
    totalWeight py ps = weightSum ps := by
  have hsum : 0 < weightSum ps := (hpos p hp).trans_le (weight_le_weightSum hpos hp)
  rw [totalWeight, hexact.sum]
  exact if_neg hsum.ne'

lemma weightSum_perm {qs : List Parsed} (h : ps.Perm qs) : weightSum ps = weightSum qs :=
  (h.map _).sum_eq

lemma byWeight_perm (ps : List Parsed) : (byWeight ps).Perm ps := perm_sortDescending _ _

lemma mem_of_byWeight {base p : Parsed} {rest : List Parsed} (h : byWeight ps = base :: rest)
    (hp : p ∈ base :: rest) : p ∈ ps := by
  rw [← h] at hp
  exact (byWeight_perm ps).mem_iff.mp hp

lemma shareSize_eq (hexact : py.Exact) (total : ℚ) (p : Parsed) :
    shareSize py total p = prefixLength total p := by
  rw [shareSize, hexact.round, hexact.round, prefixLength, mul_div_assoc]

/-- A lighter model is not asked for more trees than it has. -/
lemma prefixLength_le {total : ℚ} {p : Parsed} (hpos : 0 < p.weight) (hle : p.weight ≤ total)
    (hne : treesOf p ≠ []) : prefixLength total p ≤ (treesOf p).length := by
  have hone : 1 ≤ (treesOf p).length := List.length_pos_iff.mpr hne
  have htotal : 0 < total := hpos.trans_le hle
  have hquot : ((treesOf p).length : ℚ) * p.weight / total ≤ ((treesOf p).length : ℤ) := by
    rw [div_le_iff₀ htotal]
    push_cast
    exact mul_le_mul_of_nonneg_left hle (Nat.cast_nonneg _)
  have hfloor : ⌊((treesOf p).length : ℚ) * p.weight / total⌋ ≤ ((treesOf p).length : ℤ) := by
    have hcast := (Int.floor_le _).trans hquot
    exact_mod_cast hcast
  rw [prefixLength]
  omega

lemma bagTrees_eq_bagged (hexact : py.Exact) {base : Parsed} {rest : List Parsed} {total : ℚ}
    {trees : List Json}
    (h : bagTrees py base rest total = .ok trees) : trees = bagged total base rest := by
  obtain ⟨source, hsource, h⟩ := bind_eq_ok.mp h
  obtain ⟨baseTrees, hbase, h⟩ := bind_eq_ok.mp h
  obtain ⟨shares, hshares, h⟩ := bind_eq_ok.mp h
  obtain rfl := Except.ok.inj h
  have hlengths : shareSize py total = prefixLength total :=
    funext (shareSize_eq hexact total)
  rw [bagged, treesOf_eq hsource hbase, mapM_shareOf hshares, hlengths]

lemma treesOf_objects {p : Parsed} (h : HasTreeObjects p.model) :
    ∀ t ∈ treesOf p, ∃ fs, t = .obj fs := by
  obtain ⟨trees, htrees, hobj⟩ := h
  rw [treesOf_eq htrees rfl]
  exact hobj

lemma treesOf_ne_nil {p : Parsed} (h : p ∈ ws.filterMap (usable? py)) (hobj : HasTreeObjects p.model) :
    treesOf p ≠ [] := by
  obtain ⟨e, -, hused⟩ := List.mem_filterMap.mp h
  obtain ⟨trees, htrees, -⟩ := hobj
  exact usable_trees hused ⟨_, htrees, trivial⟩

lemma bagged_objects {base : Parsed} {rest : List Parsed} (total : ℚ)
    (h : ∀ p ∈ base :: rest, HasTreeObjects p.model) :
    ∀ t ∈ bagged total base rest, ∃ fs, t = .obj fs := by
  intro t ht
  rcases List.mem_append.mp ht with ht | ht
  · exact treesOf_objects (h base List.mem_cons_self) t ht
  · obtain ⟨l, hl, ht⟩ := List.mem_flatten.mp ht
    obtain ⟨p, hp, rfl⟩ := List.mem_map.mp hl
    exact treesOf_objects (h p (List.mem_cons_of_mem _ hp)) t (List.mem_of_mem_take ht)

/-- The functional specification of a merge with exact weights. -/
theorem mergeXgboostModels_result (hexact : py.Exact) {bytes : Bytes} {info : MergeInfo}
    (hobj : ∀ p ∈ ws.filterMap (usable? py), HasTreeObjects p.model)
    (h : mergeXgboostModels py ws = .ok (bytes, info)) :
    ∃ base rest, MergeResult py ws base rest bytes info := by
  rw [mergeXgboostModels_parts] at h
  obtain ⟨parsed, hparsed, h⟩ := bind_eq_ok.mp h
  obtain ⟨-, rfl⟩ := parseModels_eq_ok.mp hparsed
  obtain ⟨base, rest, trees, merged, hsort, hbag, hset, rfl, rfl⟩ := mergeParsed_eq_ok h
  have hperm : (base :: rest).Perm (ws.filterMap (usable? py)) := by
    rw [← hsort]
    exact perm_sortDescending _ _
  have hsorted : (base :: rest).Pairwise (fun p q => q.weight ≤ p.weight) := by
    rw [← hsort]
    exact sorted_sortDescending (fun p : Parsed => p.weight) _
  have hpos : ∀ p ∈ base :: rest, 0 < p.weight := fun p hp => usable_pos (hperm.mem_iff.mp hp)
  have hfull : ∀ p ∈ base :: rest, treesOf p ≠ [] := by
    intro p hp
    have hmem := hperm.mem_iff.mp hp
    exact treesOf_ne_nil hmem (hobj p hmem)
  have htotal : totalWeight py (ws.filterMap (usable? py)) = weightSum (base :: rest) := by
    rw [weightSum_perm hperm]
    exact totalWeight_eq hexact (fun q hq => usable_pos hq) (hperm.mem_iff.mp List.mem_cons_self)
  rw [htotal] at hbag
  obtain rfl := bagTrees_eq_bagged hexact hbag
  have htrees := bagged_objects (weightSum (base :: rest)) fun p hp => hobj p (hperm.mem_iff.mp hp)
  have hlength : 0 < (bagged (weightSum (base :: rest)) base rest).length := by
    have hbase := List.length_pos_iff.mpr (hfull base List.mem_cons_self)
    rw [bagged, List.length_append]
    omega
  have hcap : maxGlobalTrees = 500 := rfl
  obtain ⟨e, -, hused⟩ := List.mem_filterMap.mp (hperm.mem_iff.mp List.mem_cons_self)
  obtain ⟨hload, -, -, source, hsource, htruthy⟩ := usable?_eq_some.mp hused
  have hplain : ∀ t ∈ bagged (weightSum (base :: rest)) base rest, Json.Plain t := by
    intro t ht
    obtain ⟨p, hp, source, trees, hsource, hitems, ht⟩ := mem_bagTrees hbag ht
    obtain ⟨raw, -, -, hread, -⟩ := mem_parseModels hparsed (hperm.mem_iff.mp hp)
    exact plain_items (plain_getTrees (Python.plain_loads hread) hsource) hitems t ht
  have hmerged := (getTrees_setTrees (Python.plain_loads hload)
    (fun t ht => hplain t (List.mem_of_mem_take ht)) hsource htruthy hset).1
  exact ⟨base, rest,
    { usable := hperm
      descending := hsorted
      stable := by
        intro w
        rw [← hsort]
        exact filter_sortDescending w
      prefixes := by
        intro p hp
        have hmem := List.mem_cons_of_mem base hp
        exact ⟨le_max_left _ _, prefixLength_le (hpos p hmem) (weight_le_weightSum hpos hmem)
          (hfull p hmem)⟩
      decoded := ⟨merged, Json.loads_dumpsBytes hmerged, rewrites_setTrees
        (fun t ht => htrees t (List.mem_of_mem_take ht)) hsource htruthy hset⟩
      totalTrees := List.length_take
      some := by
        dsimp only
        rw [List.length_take]
        omega
      numModels := rfl
      capped := decide_eq_true_iff }⟩

/-- A value is an array of objects. -/
def isObjectList : Json → Bool
  | .arr xs => xs.all (fun x => match x with | .obj _ => true | _ => false)
  | _ => false

lemma hasTreeObjects_of_bytes {raw : Bytes} {model : Json}
    (h : (py.loads raw >>= getTrees).toOption.map isObjectList = some true)
    (hload : py.loads raw = .ok model) : HasTreeObjects model := by
  obtain ⟨source, hsource, hlist⟩ := Option.map_eq_some_iff.mp h
  have hread : getTrees model = .ok source := by
    have hok := eq_ok_of_toOption hsource
    rw [hload] at hok
    exact hok
  cases source with
  | arr xs =>
    refine ⟨xs, hread, fun t ht => ?_⟩
    have hobj := List.all_eq_true.mp hlist t ht
    cases t with
    | obj fs => exact ⟨fs, rfl⟩
    | _ => cases hobj
  | _ => cases hlist

/-- Two models of one tree each, the second one heavier. -/
theorem mergeXgboostModels_result_sample :
    ∃ bytes info, mergeXgboostModels .exact [(Sample.model, 1), (Sample.model, 2)] =
        .ok (bytes, info) ∧
      ∃ base rest, MergeResult .exact [(Sample.model, 1), (Sample.model, 2)] base rest bytes info := by
  have hok : (mergeXgboostModels .exact [(Sample.model, 1), (Sample.model, 2)]).toOption.isSome =
      true := by
    decide +kernel
  have htrees : (Python.exact.loads Sample.model >>= getTrees).toOption.map isObjectList =
      some true := by
    decide +kernel
  obtain ⟨⟨bytes, info⟩, hout⟩ := Option.isSome_iff_exists.mp hok
  have hmerge := eq_ok_of_toOption hout
  refine ⟨bytes, info, hmerge, mergeXgboostModels_result Python.exact_exact (fun p hp => ?_) hmerge⟩
  obtain ⟨e, he, hused⟩ := List.mem_filterMap.mp hp
  have hraw : e.1 = Sample.model := by
    rcases List.mem_cons.mp he with rfl | he
    · rfl
    · rw [List.mem_singleton.mp he]
  rw [← hraw] at htrees
  exact hasTreeObjects_of_bytes htrees (usable?_eq_some.mp hused).1

end Bags

end FlCoordinator
