import FlCoordinator.Aggregation

/-!
# What merging yields

The bytes of a merged model parse back, and each of its trees is, up to its id, a tree of one of
the models that were merged.
-/

namespace FlCoordinator

open Lib

/-- `tree` is one of the trees of the model in these bytes. -/
def HasTree (py : Python) (raw : Bytes) (tree : Json) : Prop :=
  ∃ model source trees, py.loads raw = .ok model ∧ getTrees model = .ok source ∧
    source.items = .ok trees ∧ tree ∈ trees

/-- Two trees that differ in their ids only. -/
def SameUpToId (tree tree' : Json) : Prop := ∃ i, tree = setTreeId i tree'

/-! ### Reading and writing the tree list -/

section Trees

variable {m m' v : Json} {k : String} {trees : List Json}

lemma get_eq_ok {d : Json} :
    m.get k d = .ok v ↔ ∃ fs, m = .obj fs ∧ (Json.field? k fs).getD d = v := by
  cases m <;> simp [Json.get]

lemma plain_of_field {fs : List (String × Json)} (h : Json.Plain (.obj fs))
    (hv : Json.field? k fs = some v) : Json.Plain v := by
  obtain ⟨p, hp, rfl⟩ := Option.map_eq_some_iff.mp hv
  exact (Json.plain_obj.mp h).2 p (List.mem_of_find?_eq_some hp)

/-- The path to a non-empty tree list. -/
structure TreePath (m : Json) (fs ls bs ms : List (String × Json)) (source : Json) : Prop where
  model : m = .obj fs
  learner : Json.field? "learner" fs = some (.obj ls)
  booster : Json.field? "gradient_booster" ls = some (.obj bs)
  inner : Json.field? "model" bs = some (.obj ms)
  trees : Json.field? "trees" ms = some source

lemma field_of_get_obj {gs : List (String × Json)} (h : m.get k (.obj []) = .ok (.obj gs))
    (hgs : gs ≠ []) : ∃ fs, m = .obj fs ∧ Json.field? k fs = some (.obj gs) := by
  obtain ⟨fs, rfl, hread⟩ := get_eq_ok.mp h
  refine ⟨fs, rfl, ?_⟩
  cases hk : Json.field? k fs with
  | none =>
    rw [hk] at hread
    exact absurd (Json.obj.inj hread).symm hgs
  | some w =>
    rw [hk] at hread
    rw [← hread]
    rfl

lemma ne_nil_of_field {fs : List (String × Json)} (h : Json.field? k fs = some v) : fs ≠ [] := by
  rintro rfl
  cases h

lemma treePath_of_truthy {source : Json} (h : getTrees m = .ok source)
    (ht : source.truthy = true) : ∃ fs ls bs ms, TreePath m fs ls bs ms source := by
  obtain ⟨learner, hl, h⟩ := bind_eq_ok.mp h
  obtain ⟨booster, hb, h⟩ := bind_eq_ok.mp h
  obtain ⟨inner, hi, h⟩ := bind_eq_ok.mp h
  obtain ⟨ms, rfl, hread⟩ := get_eq_ok.mp h
  have htrees : Json.field? "trees" ms = some source := by
    cases hk : Json.field? "trees" ms with
    | none =>
      rw [hk] at hread
      rw [← hread] at ht
      cases ht
    | some w =>
      rw [hk] at hread
      rw [← hread]
      rfl
  obtain ⟨bs, rfl, hinner⟩ := field_of_get_obj hi (ne_nil_of_field htrees)
  obtain ⟨ls, rfl, hbooster⟩ := field_of_get_obj hb (ne_nil_of_field hinner)
  obtain ⟨fs, rfl, hlearner⟩ := field_of_get_obj hl (ne_nil_of_field hbooster)
  exact ⟨fs, ls, bs, ms, rfl, hlearner, hbooster, hinner, htrees⟩

lemma field?_setModelTrees {ms ms' : List (String × Json)}
    (h : setModelTrees trees (.obj ms) = .ok (.obj ms')) :
    Json.field? "trees" ms' = some (.arr (renumber trees)) := by
  have hbase : ∀ gs : List (String × Json),
      gs = Json.setField "iteration_indptr"
        (.arr ((List.range (trees.length + 1)).map (fun i => .int i)))
        (Json.setField "tree_info" (.arr (List.replicate trees.length (.int 0)))
          (Json.setField "trees" (.arr (renumber trees)) ms)) →
      Json.field? "trees" gs = some (.arr (renumber trees)) := by
    rintro gs rfl
    rw [Json.field?_setField_ne _ _ (by decide), Json.field?_setField_ne _ _ (by decide),
      Json.field?_setField_self]
  simp only [setModelTrees] at h
  split at h
  · obtain rfl := Json.obj.inj (Except.ok.inj h)
    rw [Json.field?_setField_ne _ _ (by decide)]
    exact hbase _ rfl
  · obtain rfl := Json.obj.inj (Except.ok.inj h)
    exact hbase _ rfl

lemma setModelTrees_obj {ms : List (String × Json)} (h : setModelTrees trees (.obj ms) = .ok v) :
    ∃ ms', v = .obj ms' := by
  simp only [setModelTrees] at h
  split at h <;> exact ⟨_, (Except.ok.inj h).symm⟩

lemma plain_setTreeId (i : ℕ) (h : Json.Plain v) : Json.Plain (setTreeId i v) := by
  cases v with
  | obj fs => exact Json.plain_setField trivial h
  | _ => exact h

lemma mem_renumber {tree : Json} (h : tree ∈ renumber trees) :
    ∃ tree' ∈ trees, SameUpToId tree tree' := by
  obtain ⟨i, hi, rfl⟩ := List.mem_mapIdx.mp h
  exact ⟨trees[i], List.getElem_mem hi, i, rfl⟩

lemma plain_setModelTrees {ms : List (String × Json)} (hm : Json.Plain (.obj ms))
    (ht : ∀ t ∈ trees, Json.Plain t) (h : setModelTrees trees (.obj ms) = .ok v) :
    Json.Plain v := by
  have htrees : Json.Plain (.arr (renumber trees)) := Json.plain_arr.mpr fun t h => by
    obtain ⟨t', ht', i, rfl⟩ := mem_renumber h
    exact plain_setTreeId i (ht t' ht')
  have hinfo : Json.Plain (.arr (List.replicate trees.length (.int 0))) :=
    Json.plain_arr.mpr fun t h => by
      rw [(List.mem_replicate.mp h).2]
      trivial
  have hptr : Json.Plain (.arr ((List.range (trees.length + 1)).map (fun i => .int i))) :=
    Json.plain_arr.mpr fun t h => by
      obtain ⟨i, -, rfl⟩ := List.mem_map.mp h
      trivial
  have hset := Json.plain_setField (k := "iteration_indptr") hptr
    (Json.plain_setField (k := "tree_info") hinfo (Json.plain_setField (k := "trees") htrees hm))
  simp only [setModelTrees] at h
  split at h
  · rename_i ps hps
    obtain rfl := Except.ok.inj h
    exact Json.plain_setField (Json.plain_setField trivial (plain_of_field hset hps)) hset
  · obtain rfl := Except.ok.inj h
    exact hset

lemma getTrees_setTrees {source : Json} (hm : Json.Plain m) (ht : ∀ t ∈ trees, Json.Plain t)
    (hget : getTrees m = .ok source) (htruthy : source.truthy = true)
    (h : setTrees m trees = .ok m') :
    Json.Plain m' ∧ getTrees m' = .ok (.arr (renumber trees)) := by
  obtain ⟨fs, ls, bs, ms, rfl, hl, hb, hi, -⟩ := treePath_of_truthy hget htruthy
  have hls := plain_of_field hm hl
  have hbs := plain_of_field hls hb
  have hms := plain_of_field hbs hi
  obtain ⟨l', hl', rfl⟩ := Json.modifyKey_eq_ok hl h
  obtain ⟨b', hb', rfl⟩ := Json.modifyKey_eq_ok hb hl'
  obtain ⟨i', hi', rfl⟩ := Json.modifyKey_eq_ok hi hb'
  obtain ⟨ms', rfl⟩ := setModelTrees_obj hi'
  refine ⟨Json.plain_setField (Json.plain_setField (Json.plain_setField
    (plain_setModelTrees hms ht hi') hbs) hls) hm, ?_⟩
  simp [getTrees, Json.get, field?_setModelTrees hi', bind, Except.bind]

lemma plain_getTrees {source : Json} (hm : Json.Plain m) (h : getTrees m = .ok source) :
    Json.Plain source := by
  have hget : ∀ {m v d : Json} {k}, Json.Plain m → Json.Plain d → m.get k d = .ok v →
      Json.Plain v := by
    intro m v d k hm hd h
    obtain ⟨fs, rfl, rfl⟩ := get_eq_ok.mp h
    cases hk : Json.field? k fs with
    | none => exact hd
    | some w => exact plain_of_field hm hk
  have hobj : Json.Plain (.obj []) := Json.plain_obj.mpr ⟨List.nodup_nil, by simp⟩
  obtain ⟨learner, hl, h⟩ := bind_eq_ok.mp h
  obtain ⟨booster, hb, h⟩ := bind_eq_ok.mp h
  obtain ⟨inner, hi, h⟩ := bind_eq_ok.mp h
  exact hget (hget (hget (hget hm hobj hl) hobj hb) hobj hi) (Json.plain_arr.mpr (by simp)) h

end Trees

/-! ### The merge -/

section Merge

variable {py : Python} {ws : List (Bytes × ℚ)} {parsed : List Parsed}

lemma mem_parseModels {p : Parsed} (h : parseModels py ws = .ok parsed) (hp : p ∈ parsed) :
    ∃ raw, (raw, p.weight) ∈ ws ∧ 0 < p.weight ∧ py.loads raw = .ok p.model ∧
      ∃ source, getTrees p.model = .ok source ∧ source.truthy = true := by
  induction ws generalizing parsed with
  | nil =>
    cases h
    cases hp
  | cons w ws ih =>
    obtain ⟨raw, weight⟩ := w
    have htail : ∀ tail, parseModels py ws = .ok tail → p ∈ tail → ∃ raw',
        (raw', p.weight) ∈ (raw, weight) :: ws ∧ 0 < p.weight ∧
          py.loads raw' = .ok p.model ∧
          ∃ source, getTrees p.model = .ok source ∧ source.truthy = true := by
      intro tail htail hmem
      obtain ⟨raw', hraw', hrest⟩ := ih htail hmem
      exact ⟨raw', List.mem_cons_of_mem _ hraw', hrest⟩
    simp only [parseModels] at h
    split at h
    · split_ifs at h
      exact htail _ h hp
    · rename_i model hmodel
      split_ifs at h with hw
      · obtain ⟨source, hsource, h⟩ := bind_eq_ok.mp h
        obtain ⟨tail, hparse, h⟩ := bind_eq_ok.mp h
        obtain rfl := Except.ok.inj h
        by_cases ht : source.truthy = true
        · rw [if_pos ht] at hp
          rcases List.mem_cons.mp hp with rfl | hp
          · exact ⟨raw, List.mem_cons_self, hw, hmodel, source, hsource, ht⟩
          · exact htail tail hparse hp
        · rw [if_neg ht] at hp
          exact htail tail hparse hp
      · exact htail _ h hp

lemma mem_sliceTrees {source : Json} {n : ℕ} {slice : List Json} {tree : Json}
    (h : sliceTrees source n = .ok slice) (ht : tree ∈ slice) :
    ∃ trees, source.items = .ok trees ∧ tree ∈ trees := by
  cases source with
  | arr xs =>
    obtain rfl := Except.ok.inj h
    exact ⟨xs, rfl, List.mem_of_mem_take ht⟩
  | str s =>
    obtain rfl := Except.ok.inj h
    obtain ⟨c, hc, rfl⟩ := List.mem_map.mp ht
    exact ⟨_, rfl, List.mem_map.mpr ⟨c, List.mem_of_mem_take hc, rfl⟩⟩
  | _ => cases h

lemma mem_mapM_ok {α β : Type} {f : α → Except PyErr (List β)} {xs : List α} {ys : List (List β)}
    {b : β} (h : xs.mapM f = .ok ys) (hb : b ∈ ys.flatten) :
    ∃ x ∈ xs, ∃ l, f x = .ok l ∧ b ∈ l := by
  induction xs generalizing ys with
  | nil =>
    rw [List.mapM_nil] at h
    cases h
    cases hb
  | cons x xs ih =>
    rw [List.mapM_cons] at h
    obtain ⟨l, hl, h⟩ := bind_eq_ok.mp h
    obtain ⟨ls, hls, h⟩ := bind_eq_ok.mp h
    obtain rfl := Except.ok.inj h
    rcases List.mem_append.mp (List.flatten_cons ▸ hb) with hb | hb
    · exact ⟨x, List.mem_cons_self, l, hl, hb⟩
    · obtain ⟨x', hx', hrest⟩ := ih hls hb
      exact ⟨x', List.mem_cons_of_mem _ hx', hrest⟩

lemma mem_bagTrees {base : Parsed} {rest : List Parsed} {total : ℚ} {bagged : List Json}
    {tree : Json} (h : bagTrees py base rest total = .ok bagged) (ht : tree ∈ bagged) :
    ∃ p ∈ base :: rest, ∃ source trees, getTrees p.model = .ok source ∧
      source.items = .ok trees ∧ tree ∈ trees := by
  obtain ⟨source, hsource, h⟩ := bind_eq_ok.mp h
  obtain ⟨trees, htrees, h⟩ := bind_eq_ok.mp h
  obtain ⟨shares, hshares, h⟩ := bind_eq_ok.mp h
  obtain rfl := Except.ok.inj h
  rcases List.mem_append.mp ht with ht | ht
  · exact ⟨base, List.mem_cons_self, source, trees, hsource, htrees, ht⟩
  · obtain ⟨p, hp, slice, hslice, ht⟩ := mem_mapM_ok hshares ht
    obtain ⟨source, hsource, hslice⟩ := bind_eq_ok.mp hslice
    obtain ⟨len, -, hslice⟩ := bind_eq_ok.mp hslice
    obtain ⟨trees, htrees, ht⟩ := mem_sliceTrees hslice ht
    exact ⟨p, List.mem_cons_of_mem _ hp, source, trees, hsource, htrees, ht⟩

lemma plain_items {source : Json} {trees : List Json} (h : Json.Plain source)
    (hi : source.items = .ok trees) : ∀ t ∈ trees, Json.Plain t := by
  intro t ht
  cases source with
  | arr xs =>
    obtain rfl := Except.ok.inj hi
    exact Json.plain_arr.mp h t ht
  | str s =>
    obtain rfl := Except.ok.inj hi
    obtain ⟨c, -, rfl⟩ := List.mem_map.mp ht
    trivial
  | obj fs =>
    obtain rfl := Except.ok.inj hi
    obtain ⟨p, -, rfl⟩ := List.mem_map.mp ht
    trivial
  | _ => cases hi

/-- `sum(w for _, w in parsed) or 1.0`. -/
def totalWeight (py : Python) (ps : List Parsed) : ℚ :=
  if py.sum (ps.map (·.weight)) = 0 then 1 else py.sum (ps.map (·.weight))

/-- The bytes of a merge read back as a model with the bagged trees, cut and renumbered. -/
theorem mergeXgboostModels_eq_ok {bytes : Bytes} {info : MergeInfo}
    (h : mergeXgboostModels py ws = .ok (bytes, info)) :
    ∃ parsed base rest bagged merged, parseModels py ws = .ok parsed ∧
      byWeight parsed = base :: rest ∧ bagTrees py base rest (totalWeight py parsed) = .ok bagged ∧
      Json.loads bytes = .ok merged ∧
      getTrees merged = .ok (.arr (renumber (bagged.take maxGlobalTrees))) ∧
      info.numModels = parsed.length := by
  obtain ⟨parsed, hparsed, h⟩ := bind_eq_ok.mp h
  split_ifs at h with hempty
  obtain ⟨schemas, -, h⟩ := bind_eq_ok.mp h
  split_ifs at h with hmany
  · obtain ⟨texts, -, h⟩ := bind_eq_ok.mp h
    cases h
  · cases hsort : byWeight parsed with
    | nil =>
      rw [hsort] at h
      cases h
    | cons base rest =>
      simp only [hsort] at h
      obtain ⟨bagged, hbag, h⟩ := bind_eq_ok.mp h
      obtain ⟨merged, hset, h⟩ := bind_eq_ok.mp h
      obtain ⟨rfl, rfl⟩ := Prod.mk.inj (Except.ok.inj h)
      have hmem : ∀ p ∈ base :: rest, p ∈ parsed := by
        intro p hp
        rw [← hsort] at hp
        exact (List.perm_insertionSort _ _).mem_iff.mp hp
      have hplain : ∀ tree ∈ bagged, Json.Plain tree := by
        intro tree ht
        obtain ⟨p, hp, source, trees, hsource, hitems, ht⟩ := mem_bagTrees hbag ht
        obtain ⟨raw, -, -, hload, -⟩ := mem_parseModels hparsed (hmem p hp)
        exact plain_items (plain_getTrees (Python.plain_loads hload) hsource) hitems tree ht
      obtain ⟨raw, -, -, hload, source, hsource, htruthy⟩ :=
        mem_parseModels hparsed (hmem base List.mem_cons_self)
      obtain ⟨hmerged, htrees⟩ := getTrees_setTrees (Python.plain_loads hload)
        (fun t ht => hplain t (List.mem_of_mem_take ht)) hsource htruthy hset
      exact ⟨parsed, base, rest, bagged, merged, hparsed, hsort, hbag,
        Json.loads_dumpsBytes hmerged, htrees, rfl⟩

/-- Every tree of a merged model is, up to its id, a tree of one of the models merged. -/
theorem mergeXgboostModels_trees {bytes : Bytes} {info : MergeInfo}
    (h : mergeXgboostModels py ws = .ok (bytes, info)) :
    ∃ merged trees, Json.loads bytes = .ok merged ∧ getTrees merged = .ok (.arr trees) ∧
      ∀ tree ∈ trees, ∃ p ∈ ws, ∃ tree', HasTree py p.1 tree' ∧ SameUpToId tree tree' := by
  obtain ⟨parsed, base, rest, bagged, merged, hparsed, hsort, hbag, hload, htrees, -⟩ :=
    mergeXgboostModels_eq_ok h
  refine ⟨merged, _, hload, htrees, fun tree ht => ?_⟩
  obtain ⟨tree', ht', hsame⟩ := mem_renumber ht
  -- each bagged tree is read from the bytes of an entry
  obtain ⟨p, hp, source, trees, hsource, hitems, hmem⟩ := mem_bagTrees hbag (List.mem_of_mem_take ht')
  rw [← hsort] at hp
  obtain ⟨raw, hraw, -, hread, -⟩ :=
    mem_parseModels hparsed ((List.perm_insertionSort _ _).mem_iff.mp hp)
  exact ⟨(raw, p.weight), hraw, tree', ⟨p.model, source, trees, hread, hsource, hitems, hmem⟩, hsame⟩

end Merge

end FlCoordinator
