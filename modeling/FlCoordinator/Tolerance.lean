import FlCoordinator.GlobalModels

/-!
# Aggregating arbitrary bytes

The bytes of a contribution go through the schema gate and the merge, each with its own idea of
what it can read. This file says on which trusted contributions both succeed.
-/

namespace FlCoordinator

open Lib

/-! ### The schema gate -/

/-- The first names of the schema, those that are shown, are strings. -/
def Schema.Describable : Schema → Prop
  | .names ns => ∀ n ∈ ns.take 6, ∃ s, n = .str s
  | .dim _ => True

lemma mapM_str_isSome {ns : List Json} :
    (∃ strs, ns.mapM Json.str? = some strs) ↔ ∀ n ∈ ns, ∃ s, n = .str s := by
  induction ns with
  | nil => simp
  | cons n ns ih =>
    rw [List.forall_mem_cons, ← ih, List.mapM_cons]
    cases n with
    | str s => simp [Json.str?, Option.bind_eq_some_iff]
    | _ => simp [Json.str?]

lemma describeSchema_isOk {schema : Schema} :
    (∃ text, describeSchema schema = .ok text) ↔ schema.Describable := by
  cases schema with
  | dim n => exact ⟨fun _ => trivial, fun _ => ⟨_, rfl⟩⟩
  | names ns =>
    simp only [Schema.Describable, ← mapM_str_isSome]
    constructor
    · rintro ⟨text, h⟩
      obtain ⟨shown, hshown, -⟩ := bind_eq_ok.mp h
      unfold joinNames at hshown
      split at hshown
      · rename_i strs hstrs
        exact ⟨strs, hstrs⟩
      · cases hshown
    · rintro ⟨strs, hstrs⟩
      exact ⟨_, bind_eq_ok.mpr ⟨_, by rw [joinNames, hstrs], rfl⟩⟩

section Gate

variable {py : Python} {canonical : Schema} {vs : List Survivor} {gate gate' : Gate}

/-- `model_feature_schema(mb) == canonical`. -/
def agrees (py : Python) (canonical : Schema) (v : Survivor) : Bool :=
  match modelFeatureSchema py v.modelBytes with
  | .ok schema => schema.same canonical
  | .error _ => false

lemma agrees_eq_true {v : Survivor} :
    agrees py canonical v = true ↔ FitsSchema py canonical v.modelBytes := by
  unfold agrees FitsSchema
  cases modelFeatureSchema py v.modelBytes with
  | error e => simp
  | ok schema => simp

/-- The gate can judge the bytes: they have a schema, and where it is not the canonical one both
can be shown in the reason. -/
def Judged (py : Python) (canonical : Schema) (mb : Bytes) : Prop :=
  ∃ schema, modelFeatureSchema py mb = .ok schema ∧
    (schema.same canonical = true ∨ canonical.Describable ∧ schema.Describable)

lemma gateLoop_isOk :
    (∃ g, gateLoop py canonical vs gate = .ok g) ↔ ∀ v ∈ vs, Judged py canonical v.modelBytes := by
  induction vs generalizing gate with
  | nil => exact ⟨fun _ v hv => absurd hv List.not_mem_nil, fun _ => ⟨gate, rfl⟩⟩
  | cons v vs ih =>
    rw [List.forall_mem_cons]
    constructor
    · rintro ⟨g, h⟩
      obtain ⟨mid, hstep, h⟩ := gateLoop_cons h
      refine ⟨?_, ih.mp ⟨g, h⟩⟩
      cases hstep with
      | passed fits =>
        obtain ⟨schema, hschema, hsame⟩ := fits
        exact ⟨schema, hschema, Or.inl hsame⟩
      | demoted unfit schema expected got found shown shown' =>
        exact ⟨schema, found, Or.inr ⟨describeSchema_isOk.mp ⟨_, shown⟩,
          describeSchema_isOk.mp ⟨_, shown'⟩⟩⟩
    · rintro ⟨⟨schema, hschema, hjudged⟩, hvs⟩
      by_cases hsame : schema.same canonical = true
      · obtain ⟨g, hg⟩ := ih.mpr hvs
        refine ⟨g, bind_eq_ok.mpr ⟨schema, hschema, ?_⟩⟩
        rw [if_pos hsame]
        exact hg
      · obtain ⟨hcanonical, hdescribable⟩ := hjudged.resolve_left hsame
        obtain ⟨expected, hexpected⟩ := describeSchema_isOk.mpr hcanonical
        obtain ⟨got, hgot⟩ := describeSchema_isOk.mpr hdescribable
        obtain ⟨g, hg⟩ := ih.mpr hvs
        refine ⟨g, bind_eq_ok.mpr ⟨schema, hschema, ?_⟩⟩
        rw [if_neg hsame]
        exact bind_eq_ok.mpr ⟨expected, hexpected, bind_eq_ok.mpr ⟨got, hgot, hg⟩⟩

/-- What the merge gets: the survivors with the canonical schema, in their order. -/
def agreeing (py : Python) (canonical : Schema) (vs : List Survivor) : List (Bytes × ℚ) :=
  (vs.filter (agrees py canonical)).map (fun v => (v.modelBytes, v.weight))

/-- The lists of the gate, and that it shows the canonical schema only where it can. -/
lemma gateLoop_lists (h : gateLoop py canonical vs gate = .ok gate') :
    gate'.weighted = gate.weighted ++ agreeing py canonical vs ∧
      (gate'.excludedSchema = gate.excludedSchema ∨ canonical.Describable) := by
  induction vs generalizing gate with
  | nil =>
    obtain rfl := Except.ok.inj h
    exact ⟨(List.append_nil _).symm, Or.inl rfl⟩
  | cons v vs ih =>
    obtain ⟨mid, hstep, h⟩ := gateLoop_cons h
    obtain ⟨hweighted, hexcluded⟩ := ih h
    cases hstep with
    | passed fits =>
      refine ⟨?_, hexcluded⟩
      rw [hweighted, agreeing, agreeing, List.filter_cons_of_pos (agrees_eq_true.mpr fits),
        List.map_cons, List.append_assoc]
      rfl
    | demoted unfit schema expected got found shown shown' =>
      refine ⟨?_, Or.inr (describeSchema_isOk.mp ⟨_, shown⟩)⟩
      rw [hweighted, agreeing, agreeing, List.filter_cons_of_neg (mt agrees_eq_true.mp unfit)]

end Gate

/-! ### The merge -/

/-- A tree list that can be sliced. -/
def Sliceable : Json → Prop
  | .arr _ => True
  | .str _ => True
  | _ => False

/-- A tree list that can be copied. -/
def Iterable : Json → Prop
  | .obj _ => True
  | trees => Sliceable trees

lemma items_isOk {trees : Json} : (∃ ts, trees.items = .ok ts) ↔ Iterable trees := by
  cases trees <;> simp [Json.items, Iterable, Sliceable]

lemma shareOf_isOk {py : Python} {totalWeight : ℚ} {p : Parsed} :
    (∃ ts, shareOf py totalWeight p = .ok ts) ↔ ∃ trees, getTrees p.model = .ok trees ∧
      Sliceable trees := by
  constructor
  · rintro ⟨ts, h⟩
    obtain ⟨trees, htrees, h⟩ := bind_eq_ok.mp h
    obtain ⟨len, -, h⟩ := bind_eq_ok.mp h
    refine ⟨trees, htrees, ?_⟩
    cases trees with
    | arr xs => trivial
    | str s => trivial
    | _ => cases h
  · rintro ⟨trees, htrees, hslice⟩
    cases trees with
    | arr xs => exact ⟨_, bind_eq_ok.mpr ⟨_, htrees, rfl⟩⟩
    | str s => exact ⟨_, bind_eq_ok.mpr ⟨_, htrees, rfl⟩⟩
    | _ => cases hslice

lemma bagTrees_isOk {py : Python} {base : Parsed} {rest : List Parsed} {totalWeight : ℚ} :
    (∃ ts, bagTrees py base rest totalWeight = .ok ts) ↔
      (∃ trees, getTrees base.model = .ok trees ∧ Iterable trees) ∧
        ∀ p ∈ rest, ∃ trees, getTrees p.model = .ok trees ∧ Sliceable trees := by
  simp only [← @shareOf_isOk py totalWeight, ← mapM_isOk, ← items_isOk]
  constructor
  · rintro ⟨ts, h⟩
    obtain ⟨trees, htrees, h⟩ := bind_eq_ok.mp h
    obtain ⟨baseTrees, hbase, h⟩ := bind_eq_ok.mp h
    obtain ⟨shares, hshares, -⟩ := bind_eq_ok.mp h
    exact ⟨⟨trees, htrees, baseTrees, hbase⟩, shares, hshares⟩
  · rintro ⟨⟨trees, htrees, baseTrees, hbase⟩, shares, hshares⟩
    exact ⟨_, bind_eq_ok.mpr ⟨trees, htrees, bind_eq_ok.mpr ⟨baseTrees, hbase,
      bind_eq_ok.mpr ⟨shares, hshares, rfl⟩⟩⟩⟩

/-- The filter loop passes the entry: no exception but one for text that is not JSON, and the path
to its trees can be walked, where the loop walks it. -/
structure TreesReadable (py : Python) (entry : Bytes × ℚ) : Prop where
  decoded : ∀ e, py.loads entry.1 = .error e → e.isDecodeError = true
  walked : ∀ model, py.loads entry.1 = .ok model → 0 < entry.2 → ∃ trees, getTrees model = .ok trees

/-- What the merge keeps of an entry: a JSON model of positive weight with trees. -/
def usable? (py : Python) (entry : Bytes × ℚ) : Option Parsed :=
  match py.loads entry.1 with
  | .error _ => none
  | .ok model =>
    match getTrees model with
    | .error _ => none
    | .ok trees =>
      if 0 < entry.2 ∧ trees.truthy = true then some { model, weight := entry.2 } else none

lemma usable?_eq_some {py : Python} {entry : Bytes × ℚ} {p : Parsed} :
    usable? py entry = some p ↔ py.loads entry.1 = .ok p.model ∧ p.weight = entry.2 ∧
      0 < entry.2 ∧ ∃ trees, getTrees p.model = .ok trees ∧ trees.truthy = true := by
  obtain ⟨raw, weight⟩ := entry
  obtain ⟨model, weight'⟩ := p
  simp only [usable?]
  cases hload : py.loads raw with
  | error e => simp
  | ok m =>
    dsimp only
    cases htrees : getTrees m with
    | error e =>
      simp only [reduceCtorEq, Except.ok.injEq, false_iff, not_and, not_exists]
      rintro rfl - - trees h
      rw [htrees] at h
      cases h
    | ok trees =>
      simp only [Option.ite_none_right_eq_some, Option.some.injEq, Parsed.mk.injEq,
        Except.ok.injEq]
      constructor
      · rintro ⟨⟨hpos, htruthy⟩, rfl, rfl⟩
        exact ⟨rfl, rfl, hpos, trees, htrees, htruthy⟩
      · rintro ⟨rfl, rfl, hpos, ts, hts, htruthy⟩
        rw [htrees] at hts
        obtain rfl := Except.ok.inj hts
        exact ⟨⟨hpos, htruthy⟩, rfl, rfl⟩

lemma parseModels_eq_ok {py : Python} {ws : List (Bytes × ℚ)} {ps : List Parsed} :
    parseModels py ws = .ok ps ↔ (∀ e ∈ ws, TreesReadable py e) ∧ ps = ws.filterMap (usable? py) := by
  induction ws generalizing ps with
  | nil => simp [parseModels, eq_comm]
  | cons e ws ih =>
    obtain ⟨raw, weight⟩ := e
    rw [List.forall_mem_cons, parseModels]
    cases hload : py.loads raw with
    | error d =>
      have hnone : usable? py (raw, weight) = none := by rw [usable?, hload]
      have hread : TreesReadable py (raw, weight) ↔ d.isDecodeError = true := by
        constructor
        · exact fun h => h.decoded d hload
        · refine fun hd => ⟨fun e he => ?_, fun model hmodel => ?_⟩
          · rw [hload] at he
            exact Except.error.inj he ▸ hd
          · rw [hload] at hmodel
            cases hmodel
      rw [List.filterMap_cons_none hnone, hread]
      by_cases hd : d.isDecodeError = true
      · simp only [true_and, hd]
        exact ih
      · simp [hd]
    | ok model =>
      by_cases hpos : 0 < weight
      · simp only [if_pos hpos]
        constructor
        · intro h
          obtain ⟨trees, htrees, h⟩ := bind_eq_ok.mp h
          obtain ⟨tail, htail, h⟩ := bind_eq_ok.mp h
          obtain ⟨hall, rfl⟩ := ih.mp htail
          obtain rfl := Except.ok.inj h
          refine ⟨⟨⟨fun e he => ?_, fun m hm _ => ?_⟩, hall⟩, ?_⟩
          · rw [hload] at he
            cases he
          · rw [hload] at hm
            obtain rfl := Except.ok.inj hm
            exact ⟨trees, htrees⟩
          · by_cases ht : trees.truthy = true
            · rw [if_pos ht, List.filterMap_cons_some (b := ⟨model, weight⟩)
                (usable?_eq_some.mpr ⟨hload, rfl, hpos, trees, htrees, ht⟩)]
            · rw [if_neg ht, List.filterMap_cons_none]
              rw [usable?, hload]
              simp [htrees, ht]
        · rintro ⟨⟨hread, hall⟩, rfl⟩
          obtain ⟨trees, htrees⟩ := hread.walked model hload hpos
          refine bind_eq_ok.mpr ⟨trees, htrees, bind_eq_ok.mpr ⟨_, ih.mpr ⟨hall, rfl⟩, ?_⟩⟩
          by_cases ht : trees.truthy = true
          · rw [if_pos ht, List.filterMap_cons_some (b := ⟨model, weight⟩)
              (usable?_eq_some.mpr ⟨hload, rfl, hpos, trees, htrees, ht⟩)]
          · rw [if_neg ht, List.filterMap_cons_none]
            rw [usable?, hload]
            simp [htrees, ht]
      · have hnone : usable? py (raw, weight) = none := by
          simp only [usable?, hload, hpos, false_and, if_false]
          split <;> rfl
        simp only [if_neg hpos]
        rw [List.filterMap_cons_none hnone]
        have hread : TreesReadable py (raw, weight) := by
          refine ⟨fun e he => ?_, fun _ _ h => absurd h hpos⟩
          rw [hload] at he
          cases he
        exact ih.trans ⟨fun h => ⟨⟨hread, h.1⟩, h.2⟩, fun h => ⟨h.1.2, h.2⟩⟩

/-- The schema of the model can be put in a set. -/
def Hashed (p : Parsed) : Prop := ∃ schema, schemaOf p.model = .ok schema ∧ schema.hashable = true

lemma Schema.same_of_same {a b c : Schema} (ha : a.hashable = true) (hac : a.same c = true)
    (hbc : b.same c = true) : a.same b = true := by
  cases a with
  | names ns =>
    cases c with
    | dim n => cases hac
    | names ks =>
      cases b with
      | dim n => cases hbc
      | names ms => exact Json.sameList_of_sameList ha hac hbc
  | dim n =>
    cases c with
    | names ks => cases hac
    | dim k =>
      cases b with
      | names ms => cases hbc
      | dim m =>
        simp only [Schema.same, decide_eq_true_eq] at hac hbc ⊢
        exact hac.trans hbc.symm

lemma distinctSchemas_isOk {ps : List Parsed} :
    (∃ ss, distinctSchemas ps = .ok ss) ↔ ∀ p ∈ ps, Hashed p := by
  induction ps with
  | nil => exact ⟨fun _ p hp => absurd hp List.not_mem_nil, fun _ => ⟨[], rfl⟩⟩
  | cons p ps ih =>
    rw [List.forall_mem_cons, ← ih]
    constructor
    · rintro ⟨ss, h⟩
      obtain ⟨schema, hschema, h⟩ := bind_eq_ok.mp h
      split_ifs at h with hhash
      obtain ⟨tail, hrest, -⟩ := bind_eq_ok.mp h
      exact ⟨⟨schema, hschema, Bool.not_eq_false _ ▸ hhash⟩, tail, hrest⟩
    · rintro ⟨⟨schema, hschema, hhash⟩, tail, hrest⟩
      refine ⟨schema :: tail.filter (fun t => !schema.same t), bind_eq_ok.mpr ⟨schema, hschema, ?_⟩⟩
      rw [if_neg (by rw [hhash]; decide)]
      exact bind_eq_ok.mpr ⟨tail, hrest, rfl⟩

lemma distinctSchemas_length {canonical : Schema} {ps : List Parsed} {ss : List Schema}
    (hfits : ∀ p ∈ ps, ∃ schema, schemaOf p.model = .ok schema ∧ schema.same canonical = true)
    (h : distinctSchemas ps = .ok ss) :
    ss.length ≤ 1 ∧ ∀ schema ∈ ss, schema.same canonical = true := by
  induction ps generalizing ss with
  | nil =>
    obtain rfl := Except.ok.inj h
    exact ⟨Nat.zero_le 1, fun schema hs => absurd hs List.not_mem_nil⟩
  | cons p ps ih =>
    obtain ⟨⟨s, hs, hsame⟩, htail⟩ := List.forall_mem_cons.mp hfits
    obtain ⟨schema, hschema, h⟩ := bind_eq_ok.mp h
    rw [hs] at hschema
    obtain rfl := Except.ok.inj hschema
    split_ifs at h with hhash
    obtain ⟨tail, hrest, h⟩ := bind_eq_ok.mp h
    obtain rfl := Except.ok.inj h
    obtain ⟨-, hall⟩ := ih htail hrest
    -- the schemas of the others are dropped, each equals this one
    have hnone : tail.filter (fun t => !s.same t) = [] := by
      rw [List.filter_eq_nil_iff]
      intro t ht
      rw [Schema.same_of_same (Bool.not_eq_false _ ▸ hhash) hsame (hall t ht)]
      decide
    rw [hnone]
    refine ⟨le_refl 1, fun schema hmem => ?_⟩
    rw [List.mem_singleton.mp hmem]
    exact hsame

lemma setTrees_isOk {model source : Json} {trees : List Json} (h : getTrees model = .ok source)
    (ht : source.truthy = true) : ∃ merged, setTrees model trees = .ok merged := by
  obtain ⟨fs, ls, bs, ms, rfl, hl, hb, hi, -⟩ := treePath_of_truthy h ht
  refine Json.modifyKey_isOk hl (Json.modifyKey_isOk hb (Json.modifyKey_isOk hi ?_))
  simp only [setModelTrees]
  split <;> exact ⟨_, rfl⟩

/-- The entries can be merged: their trees can be reached, some entry is usable, the schemas of
the usable ones can be put in a set, and their trees are lists or strings (of the first one, a
dict at most). -/
structure Mergeable (py : Python) (ws : List (Bytes × ℚ)) : Prop where
  readable : ∀ e ∈ ws, TreesReadable py e
  hashed : ∀ p ∈ ws.filterMap (usable? py), Hashed p
  bagged : ∃ base rest, ws.filterMap (usable? py) = base :: rest ∧
    (∃ trees, getTrees base.model = .ok trees ∧ Iterable trees) ∧
    ∀ p ∈ rest, ∃ trees, getTrees p.model = .ok trees ∧ Sliceable trees

lemma byWeight_usable {py : Python} {ws : List (Bytes × ℚ)}
    (hsorted : ws.Pairwise (fun a b => b.2 ≤ a.2)) :
    byWeight (ws.filterMap (usable? py)) = ws.filterMap (usable? py) := by
  apply List.Pairwise.insertionSort_eq
  rw [List.pairwise_filterMap]
  refine hsorted.imp fun {a b} hab p hp q hq => ?_
  rw [(usable?_eq_some.mp hp).2.1, (usable?_eq_some.mp hq).2.1]
  exact hab

/-- Entries that are sorted by weight and share a schema merge when they are mergeable. -/
theorem mergeXgboostModels_isOk {py : Python} {canonical : Schema} {ws : List (Bytes × ℚ)}
    (hsorted : ws.Pairwise (fun a b => b.2 ≤ a.2)) (hfits : ∀ e ∈ ws, FitsSchema py canonical e.1) :
    (∃ out, mergeXgboostModels py ws = .ok out) ↔ Mergeable py ws := by
  -- the models in the filter loop have the schema of their entries
  have hschemas : ∀ p ∈ ws.filterMap (usable? py), ∃ schema, schemaOf p.model = .ok schema ∧
      schema.same canonical = true := by
    intro p hp
    obtain ⟨e, he, hp⟩ := List.mem_filterMap.mp hp
    obtain ⟨schema, hschema, hsame⟩ := hfits e he
    obtain ⟨model, hmodel, hschema⟩ := bind_eq_ok.mp hschema
    rw [(usable?_eq_some.mp hp).1] at hmodel
    obtain rfl := Except.ok.inj hmodel
    exact ⟨schema, hschema, hsame⟩
  have hweights := @byWeight_usable py ws hsorted
  constructor
  · rintro ⟨out, h⟩
    obtain ⟨parsed, hparsed, h⟩ := bind_eq_ok.mp h
    obtain ⟨hreadable, rfl⟩ := parseModels_eq_ok.mp hparsed
    split_ifs at h with hempty
    obtain ⟨schemas, hset, h⟩ := bind_eq_ok.mp h
    rw [if_neg (not_lt.mpr (distinctSchemas_length hschemas hset).1)] at h
    refine ⟨hreadable, distinctSchemas_isOk.mp ⟨schemas, hset⟩, ?_⟩
    simp only [hweights] at h
    cases hbase : ws.filterMap (usable? py) with
    | nil =>
      rw [hbase] at hempty
      exact absurd rfl hempty
    | cons base rest =>
      simp only [hbase] at h
      obtain ⟨bagged, hbag, -⟩ := bind_eq_ok.mp h
      exact ⟨base, rest, rfl, bagTrees_isOk.mp ⟨bagged, hbag⟩⟩
  · intro hm
    obtain ⟨base, rest, hbase, htrees⟩ := hm.bagged
    obtain ⟨schemas, hset⟩ := distinctSchemas_isOk.mpr hm.hashed
    obtain ⟨e, he, hused⟩ := List.mem_filterMap.mp
      (hbase ▸ List.mem_cons_self : base ∈ ws.filterMap (usable? py))
    obtain ⟨-, -, -, source, hsource, htruthy⟩ := usable?_eq_some.mp hused
    have hlength := (distinctSchemas_length hschemas hset).1
    rw [hbase] at hset hweights
    obtain ⟨bagged, hbag⟩ := bagTrees_isOk.mpr htrees
    obtain ⟨merged, hmerged⟩ := @setTrees_isOk _ _ (bagged.take maxGlobalTrees) hsource htruthy
    refine ⟨(Json.dumpsBytes merged,
      { numModels := (base :: rest).length
        totalTrees := (bagged.take maxGlobalTrees).length
        capped := decide (maxGlobalTrees < bagged.length) }),
      bind_eq_ok.mpr ⟨base :: rest, parseModels_eq_ok.mpr ⟨hm.readable, hbase.symm⟩, ?_⟩⟩
    rw [if_neg (by simp)]
    refine bind_eq_ok.mpr ⟨schemas, hset, ?_⟩
    rw [if_neg (not_lt.mpr hlength)]
    simp only [hweights]
    exact bind_eq_ok.mpr ⟨bagged, hbag, bind_eq_ok.mpr ⟨merged, hmerged, rfl⟩⟩

/-! ### The trusted contributions of a round -/

section Trusted

/-- The contributions that the trust manager accepts, scored from position `i` on. -/
def trustSurvivors (tm : TrustManager) (env : ScoreEnv) (files : String → Option Bytes) :
    ℕ → List Store.AcceptedModel → Store → List Survivor
  | _, [], _ => []
  | i, c :: cs, s =>
    match files c.modelPath with
    | none => trustSurvivors tm env files (i + 1) cs s
    | some mb =>
      let scored := tm.evaluate s c.orgId (env.judge i mb) c.numExamples (env.scoredAt i)
      let rest := trustSurvivors tm env files (i + 1) cs scored.2
      if scored.1.accepted then ⟨c.orgId, mb, scored.1.weight⟩ :: rest else rest

/-- The trusted contributions of the round, as its aggregation in the world `w` finds them. -/
def trustedIn (app : App) (roundId : ℤ) (env : AggregateEnv) (w : World) : List Survivor :=
  match app.trust with
  | none => []
  | some settings => trustSurvivors (app.trustManager settings) env.score w.files 0
      (w.store.getAcceptedModels roundId) w.store

variable {app : App} {roundId : ℤ}

lemma Scored.survivors_eq {tm : TrustManager} {env : ScoreEnv} {i : ℕ}
    {cs : List Store.AcceptedModel} {w t : World} {tally : Tally}
    (h : Scored app tm roundId env i cs w tally t) :
    tally.survivors = trustSurvivors tm env w.files i cs w.store := by
  induction h with
  | nil i w => rfl
  | missing i c cs w t tally hfile tail ih => simpa only [trustSurvivors, hfile] using ih
  | scored i c cs w t tally mb hfile ev s hev tail ih =>
    simp only [trustSurvivors, hfile, hev, ih]
    rfl

variable {env : AggregateEnv} {w : World} {settings : TrustSettings}

lemma trustedIn_eq (h : app.trust = some settings) {tally : Tally} {t : World}
    (hs : Scored app (app.trustManager settings) roundId env.score 0
      (w.store.getAcceptedModels roundId) w tally t) :
    tally.survivors = trustedIn app roundId env w := by
  rw [hs.survivors_eq, trustedIn, h]

end Trusted

/-! ### When the trusted contributions combine -/

/-- The trusted contributions go through the gate and the merge, under the schema `canonical` of
the heaviest one. -/
structure Combinable (py : Python) (canonical : Schema) (vs : List Survivor) : Prop where
  heaviest : ∃ v rest, sortSurvivors vs = v :: rest ∧
    modelFeatureSchema py v.modelBytes = .ok canonical
  judged : ∀ v ∈ vs, Judged py canonical v.modelBytes
  mergeable : Mergeable py (agreeing py canonical (sortSurvivors vs))

section Combine

variable {py : Python} {canonical : Schema} {vs : List Survivor} {tally : Tally} {gate : Gate}

lemma Combinable.canonical_unique {canonical' : Schema} (h : Combinable py canonical vs)
    (h' : Combinable py canonical' vs) : canonical = canonical' := by
  obtain ⟨v, rest, hsort, hschema⟩ := h.heaviest
  obtain ⟨v', rest', hsort', hschema'⟩ := h'.heaviest
  rw [hsort] at hsort'
  obtain ⟨rfl, -⟩ := List.cons.inj hsort'
  exact Except.ok.inj (hschema.symm.trans hschema')

lemma mem_sortSurvivors {v : Survivor} : v ∈ sortSurvivors vs ↔ v ∈ vs :=
  (List.perm_insertionSort _ _).mem_iff

lemma agreeing_sorted :
    (agreeing py canonical (sortSurvivors vs)).Pairwise (fun a b => b.2 ≤ a.2) := by
  have hsorted : (sortSurvivors vs).Pairwise (fun a b => b.weight ≤ a.weight) :=
    List.pairwise_insertionSort (fun a b : Survivor => b.weight ≤ a.weight) _
  rw [agreeing, List.pairwise_map]
  exact hsorted.filter _

lemma agreeing_fits : ∀ e ∈ agreeing py canonical vs, FitsSchema py canonical e.1 := by
  intro e he
  obtain ⟨v, hv, rfl⟩ := List.mem_map.mp he
  exact agrees_eq_true.mp (List.mem_filter.mp hv).2

lemma schemaGate_eq_ok (h : schemaGate py tally = .ok (canonical, gate)) :
    (∃ v rest, sortSurvivors tally.survivors = v :: rest ∧
      modelFeatureSchema py v.modelBytes = .ok canonical) ∧
    (∀ v ∈ tally.survivors, Judged py canonical v.modelBytes) ∧
    gate.weighted = agreeing py canonical (sortSurvivors tally.survivors) ∧
    (gate.excludedSchema = [] ∨ canonical.Describable) := by
  obtain ⟨hheaviest, hloop⟩ := schemaGate_loop h
  obtain ⟨hweighted, hexcluded⟩ := gateLoop_lists hloop
  refine ⟨hheaviest, fun u hu => ?_, hweighted, hexcluded⟩
  exact gateLoop_isOk.mp ⟨_, hloop⟩ u (mem_sortSurvivors.mpr hu)

lemma schemaGate_isOk
    (hheaviest : ∃ v rest, sortSurvivors tally.survivors = v :: rest ∧
      modelFeatureSchema py v.modelBytes = .ok canonical)
    (hjudged : ∀ v ∈ tally.survivors, Judged py canonical v.modelBytes) :
    ∃ gate, schemaGate py tally = .ok (canonical, gate) := by
  obtain ⟨v, rest, hsort, hschema⟩ := hheaviest
  have hall : ∀ u ∈ v :: rest, Judged py canonical u.modelBytes :=
    fun u hu => hjudged u (mem_sortSurvivors.mp (hsort ▸ hu))
  obtain ⟨gate, hgate⟩ := (@gateLoop_isOk _ _ _ ⟨[], tally.results, []⟩).mpr hall
  refine ⟨gate, ?_⟩
  unfold schemaGate
  rw [hsort]
  exact bind_eq_ok.mpr ⟨canonical, hschema, bind_eq_ok.mpr ⟨gate, hgate, rfl⟩⟩

lemma merge_isOk (h : schemaGate py tally = .ok (canonical, gate)) :
    (∃ out, mergeXgboostModels py gate.weighted = .ok out) ↔
      Combinable py canonical tally.survivors := by
  obtain ⟨hheaviest, hjudged, hweighted, -⟩ := schemaGate_eq_ok h
  rw [hweighted, mergeXgboostModels_isOk agreeing_sorted agreeing_fits]
  exact ⟨fun hm => ⟨hheaviest, hjudged, hm⟩, Combinable.mergeable⟩

end Combine

/-! ### Aggregating -/

/-- An operator may aggregate the round now: it is running and its window has passed. -/
structure Due (user : Option FLUser) (roundId : ℤ) (env : AggregateEnv) (w : World) : Prop where
  permitted : Permitted user "fl_aggregate_round"
  fits : Host.bindInt roundId = .ok roundId
  running : ∃ r, w.store.getRound roundId = some r ∧ r.status = .running ∧
    r.startedAt + r.params.observationHours.toRat * 3600 ≤ env.now

/-- A JSON model with a non-empty list of trees. -/
def IsTreeModel (py : Python) (mb : Bytes) : Prop :=
  ∃ model tree trees, py.loads mb = .ok model ∧ getTrees model = .ok (.arr (tree :: trees))

/-- The response names the org among the rejected and not among the accepted. -/
def ReportedRejected (resp : AggregateResponse) (orgId : String) : Prop :=
  orgId ∉ resp.acceptedOrgs ∧ ∃ x ∈ resp.rejected, x.orgId = orgId

/-- The round is aggregated, and the version of the response is staged for it. -/
structure StagedFor (roundId : ℤ) (resp : AggregateResponse) (s : Store) : Prop where
  round : ∃ r, s.getRound roundId = some r ∧ r.status = .aggregated
  version : ∃ g, s.getGlobalModel resp.versionId = some g ∧ g.roundId = roundId ∧
    g.status = .staged

/-- No bytes make the aggregation crash, and none keep it from staging the tree models and
reporting the other trusted contributions as rejected. -/
structure Tolerates (app : App) (user : Option FLUser) (roundId : ℤ) (env : AggregateEnv)
    (w : World) : Prop where
  handled : ∀ e, (aggregateRound app user roundId env w).1 ≠ .error (.uncaught e)
  staged : (∃ v ∈ trustedIn app roundId env w, IsTreeModel app.python v.modelBytes) →
    ∃ resp, (aggregateRound app user roundId env w).1 = .ok resp ∧
      StagedFor roundId resp (aggregateRound app user roundId env w).2.store ∧
      ∀ v ∈ trustedIn app roundId env w, ¬IsTreeModel app.python v.modelBytes →
        ReportedRejected resp v.orgId

/-- Nothing is trusted, or the trusted contributions combine and, where there is a tree model
among them, each other one is of an org with a contribution of another schema. -/
def Tolerable (py : Python) (vs : List Survivor) : Prop :=
  vs = [] ∨ ∃ canonical, Combinable py canonical vs ∧
    ((∃ v ∈ vs, IsTreeModel py v.modelBytes) → ∀ v ∈ vs, ¬IsTreeModel py v.modelBytes →
      ∃ u ∈ vs, u.orgId = v.orgId ∧ ¬FitsSchema py canonical u.modelBytes)

section Outcome

open Handler

variable {app : App} {user : Option FLUser} {roundId : ℤ} {env : AggregateEnv} {w : World}

/-- A due aggregation is refused when nothing is trusted, and crashes exactly when the trusted
contributions do not combine. -/
lemma aggregateRound_outcome (app : App) (due : Due user roundId env w) :
    (aggregateRound app user roundId env).wp
      (fun r _ =>
        ((∃ status detail, r = .error (.http status detail)) ∧ trustedIn app roundId env w = []) ∨
        ((∃ e, r = .error (.uncaught e)) ∧ trustedIn app roundId env w ≠ [] ∧
          ∀ canonical, ¬Combinable app.python canonical (trustedIn app roundId env w)) ∨
        ∃ resp, r = .ok resp) w := by
  obtain ⟨row, hrow, hrun, hwindow⟩ := due.running
  unfold aggregateRound requireRunning
  apply wp_flRequire_bind (fun hno => absurd due.permitted hno)
  intro u _ _
  apply wp_requireRound_ok due.fits hrow
  apply wp_ensure_bind (fun hno => absurd hrun hno)
  intro _
  apply wp_ensure_bind (fun hno => absurd (by linarith) hno)
  intro _
  refine wp_orRaise_bind (fun hnone => Or.inl ⟨⟨_, _, rfl⟩, by rw [trustedIn, hnone]⟩)
    fun settings hsettings => ?_
  apply wp_query_bind
  refine wp_ensure_bind (fun hempty => Or.inl ⟨⟨_, _, rfl⟩, ?_⟩) fun _ => ?_
  · rw [trustedIn, hsettings, not_not.mp hempty]
    rfl
  refine wp_call_bind (scoreContributions_spec 0 _ w) (fun e t h => ?_) fun tally t h => ?_
  · obtain ⟨_, h, -⟩ := h
    cases h
  obtain ⟨_, h, hscored⟩ := h
  cases h
  rw [← trustedIn_eq hsettings hscored]
  refine wp_ensure_bind (fun hempty => Or.inl ⟨⟨_, _, rfl⟩, ?_⟩) fun hsome => ?_
  · simpa using hempty
  have hne : tally.survivors ≠ [] := by simpa using hsome
  refine wp_attempt_bind (fun e hgate => Or.inr (Or.inl ⟨⟨e, rfl⟩, hne, fun c hc => ?_⟩))
    fun cg hgate => ?_
  · obtain ⟨gate, hok⟩ := schemaGate_isOk hc.heaviest hc.judged
    rw [hgate] at hok
    cases hok
  obtain ⟨canonical, gate⟩ := cg
  have hcrash : ∀ e, mergeXgboostModels app.python gate.weighted = .error e →
      ∀ c, ¬Combinable app.python c tally.survivors := by
    intro e hmerge c hc
    obtain ⟨gate', hok⟩ := schemaGate_isOk hc.heaviest hc.judged
    rw [hgate] at hok
    obtain ⟨rfl, rfl⟩ := Prod.mk.inj (Except.ok.inj hok)
    obtain ⟨out, hout⟩ := (merge_isOk hgate).mpr hc
    rw [hmerge] at hout
    cases hout
  have hrest : ∀ v : World, (attempt (mergeXgboostModels app.python gate.weighted) Failure.uncaught >>=
      fun p => stageRound app u row roundId (w.store.getAcceptedModels roundId).length gate
        tally.trustUpdates p.1 p.2 env).wp
      (fun r _ =>
        ((∃ status detail, r = .error (.http status detail)) ∧ tally.survivors = []) ∨
        ((∃ e, r = .error (.uncaught e)) ∧ tally.survivors ≠ [] ∧
          ∀ canonical, ¬Combinable app.python canonical tally.survivors) ∨
        ∃ resp, r = .ok resp) v := by
    intro v
    refine wp_attempt_bind (fun e hmerge => Or.inr (Or.inl ⟨⟨e, rfl⟩, hne, hcrash e hmerge⟩))
      fun out _ => ?_
    obtain ⟨bytes, info⟩ := out
    unfold stageRound
    refine wp_writeFile_bind (wp_insert_bind (wp_execute_bind (wp_log_bind ?_)))
    exact Or.inr (Or.inr ⟨_, rfl⟩)
  by_cases hex : gate.excludedSchema ≠ []
  · simp only [if_pos hex]
    refine wp_attempt_bind (fun e hno => ?_) fun shown _ => wp_log_bind (hrest _)
    -- the gate has shown the canonical schema before
    obtain ⟨text, htext⟩ := describeSchema_isOk.mpr
      ((schemaGate_eq_ok hgate).2.2.2.resolve_left hex)
    rw [hno] at htext
    cases htext
  · simp only [if_neg hex]
    exact hrest _

namespace Aggregated

variable {resp : AggregateResponse} {t : World}

lemma survivors_eq (h : Aggregated app user roundId env w resp t) :
    h.tally.survivors = trustedIn app roundId env w := trustedIn_eq h.trust h.scored

lemma combinable (h : Aggregated app user roundId env w resp t) :
    Combinable app.python h.canonical (trustedIn app roundId env w) := by
  rw [← h.survivors_eq]
  exact (merge_isOk h.gated).mp ⟨_, h.merged⟩

lemma stagedFor (h : Aggregated app user roundId env w resp t) :
    StagedFor roundId resp t.store where
  round := ⟨_, h.getRound, rfl⟩
  version := by
    refine ⟨stagedVersion app h.row roundId h.gate h.bytes h.info env resp.versionId, ?_, rfl, rfl⟩
    rw [h.store, h.version]
    exact getGlobalModel_stagedStore _ _ _ _ _ _ _ _

lemma reportedRejected_iff (h : Aggregated app user roundId env w resp t) {v : Survivor}
    (hv : v ∈ trustedIn app roundId env w) :
    ReportedRejected resp v.orgId ↔ ∃ u ∈ trustedIn app roundId env w, u.orgId = v.orgId ∧
      ¬FitsSchema app.python h.canonical u.modelBytes := by
  obtain ⟨-, horgs, -, hacc⟩ := schemaGate_spec h.gated
  rw [← h.survivors_eq] at hv ⊢
  have htrusted : v.orgId ∈ acceptedOrgsOf h.tally.results :=
    h.scored.survivors_orgs ▸ List.mem_map_of_mem hv
  have hno : v.orgId ∉ resp.acceptedOrgs ↔ ∃ u ∈ h.tally.survivors, u.orgId = v.orgId ∧
      ¬FitsSchema app.python h.canonical u.modelBytes := by
    rw [h.response.1, hacc, and_iff_right htrusted]
    push Not
    rfl
  refine ⟨fun hr => hno.mp hr.1, fun hr => ⟨hno.mpr hr, ?_⟩⟩
  -- its entry is still in the results, and no longer accepted
  have hentry : v.orgId ∈ h.gate.results.map (·.orgId) := by
    rw [horgs]
    obtain ⟨x, hx, -, horg⟩ := mem_acceptedOrgsOf.mp htrusted
    exact List.mem_map.mpr ⟨x, hx, horg⟩
  obtain ⟨x, hx, horg⟩ := List.mem_map.mp hentry
  refine ⟨x, ?_, horg⟩
  rw [h.rejected, List.mem_filter]
  refine ⟨hx, ?_⟩
  cases hacc' : x.accepted with
  | false => rfl
  | true =>
    apply absurd (mem_acceptedOrgsOf.mpr ⟨x, hx, hacc', horg⟩)
    rw [← h.response.1]
    exact hno.mpr hr

end Aggregated

lemma aggregated_of_ok {resp : AggregateResponse}
    (h : (aggregateRound app user roundId env w).1 = .ok resp) :
    Nonempty (Aggregated app user roundId env w resp (aggregateRound app user roundId env w).2) := by
  have hspec := aggregateRound_spec app w user roundId env
  rw [wp_def] at hspec
  rcases hspec with ⟨e, he, -⟩ | ⟨resp', hresp, hdone⟩
  · rw [h] at he
    cases he
  · rw [h] at hresp
    obtain rfl := Except.ok.inj hresp
    exact hdone

/-- Which bytes an aggregation tolerates. -/
theorem aggregateRound_tolerates_iff (due : Due user roundId env w) :
    Tolerates app user roundId env w ↔ Tolerable app.python (trustedIn app roundId env w) := by
  have houtcome := aggregateRound_outcome app due
  rw [wp_def] at houtcome
  rcases houtcome with ⟨⟨status, detail, herr⟩, hnone⟩ | ⟨⟨e, herr⟩, hsome, hcrash⟩ | ⟨resp, hok⟩
  · refine ⟨fun _ => Or.inl hnone, fun _ => ⟨fun e he => ?_, ?_⟩⟩
    · rw [herr] at he
      cases he
    · rintro ⟨v, hv, -⟩
      rw [hnone] at hv
      cases hv
  · refine ⟨fun h => absurd herr (h.handled e), ?_⟩
    rintro (hnone | ⟨canonical, hc, -⟩)
    · exact absurd hnone hsome
    · exact absurd hc (hcrash canonical)
  · obtain ⟨done⟩ := aggregated_of_ok hok
    have hcombines := done.combinable
    constructor
    · intro h
      refine Or.inr ⟨done.canonical, hcombines, fun htree v hv hno => ?_⟩
      obtain ⟨resp', hresp, -, hall⟩ := h.staged htree
      rw [hok] at hresp
      obtain rfl := Except.ok.inj hresp
      exact (done.reportedRejected_iff hv).mp (hall v hv hno)
    · rintro (hnone | ⟨canonical, hc, hall⟩)
      · obtain ⟨v, rest, hsort, -⟩ := hcombines.heaviest
        rw [hnone] at hsort
        cases hsort
      · -- the heaviest contribution has one schema
        have hsame : canonical = done.canonical := by
          obtain ⟨v, rest, hsort, hschema⟩ := hc.heaviest
          obtain ⟨v', rest', hsort', hschema'⟩ := hcombines.heaviest
          rw [hsort] at hsort'
          obtain ⟨rfl, -⟩ := List.cons.inj hsort'
          exact Except.ok.inj (hschema.symm.trans hschema')
        subst hsame
        refine ⟨fun e he => ?_, fun htree => ⟨resp, hok, done.stagedFor, fun v hv hno => ?_⟩⟩
        · rw [hok] at he
          cases he
        · exact (done.reportedRejected_iff hv).mpr (hall htree v hv hno)

/-- The trust manager scores every model well. -/
def allScored (_ : ℕ) : Judgement := .scored 1

lemma due_of_running (judge : ℕ → Judgement)
    (h : (w.store.getRound 1).map (fun r =>
      (r.status, decide (r.startedAt + r.params.observationHours.toRat * 3600 ≤ 200))) =
      some (.running, true)) :
    Due (some Sample.admin) 1 (Sample.aggregateEnv judge) w := by
  obtain ⟨r, hr, hdata⟩ := Option.map_eq_some_iff.mp h
  obtain ⟨hrun, hwindow⟩ := Prod.mk.inj hdata
  exact ⟨⟨Sample.admin, rfl, by decide⟩, rfl, r, hr, hrun, of_decide_eq_true hwindow⟩

theorem aggregateRound_tolerates_iff_twoUploads :
    Due (some Sample.admin) 1 (Sample.aggregateEnv allScored)
      (after Sample.app twoUploads).world ∧
    (Tolerates Sample.app (some Sample.admin) 1 (Sample.aggregateEnv allScored)
      (after Sample.app twoUploads).world ↔
      Tolerable Sample.app.python (trustedIn Sample.app 1 (Sample.aggregateEnv allScored)
        (after Sample.app twoUploads).world)) := by
  have hdue : Due (some Sample.admin) 1 (Sample.aggregateEnv allScored)
      (after Sample.app twoUploads).world := due_of_running allScored (by decide +kernel)
  exact ⟨hdue, aggregateRound_tolerates_iff hdue⟩

/-- Org x uploads a JSON model, org y one in a binary format that XGBoost also loads. -/
def binaryUpload : List Event :=
  [Sample.enroll "x" [1] 11, Sample.enroll "y" [2] 12, Sample.start none,
    Sample.challenge "a" (Sample.certOf "x" [1] 11), Sample.challenge "b" (Sample.certOf "y" [2] 12),
    Sample.contribute "x" "a" [1] 11 Sample.model, Sample.contribute "y" "b" [2] 12 [123, 76],
    Sample.resume, Sample.resume]

/-- A value is a non-empty list. -/
def isTreeList : Json → Bool
  | .arr (_ :: _) => true
  | _ => false

lemma isTreeModel_sample : IsTreeModel Sample.app.python Sample.model := by
  have h : ((Sample.app.python.loads Sample.model >>= getTrees).toOption.map isTreeList) =
      some true := by
    decide +kernel
  obtain ⟨v, hv, hlist⟩ := Option.map_eq_some_iff.mp h
  cases hread : Sample.app.python.loads Sample.model >>= getTrees with
  | error e =>
    rw [hread] at hv
    cases hv
  | ok trees =>
    rw [hread] at hv
    obtain rfl := Option.some.inj hv
    obtain ⟨model, hmodel, htrees⟩ := bind_eq_ok.mp hread
    match trees, hlist with
    | .arr (tree :: rest), _ => exact ⟨model, tree, rest, hmodel, htrees⟩

/-- The request ends in an exception that nothing catches. -/
def crashes {α : Type} : Except Failure α → Bool
  | .error (.uncaught _) => true
  | _ => false

lemma crashes_iff {α : Type} {r : Except Failure α} :
    crashes r = true ↔ ∃ e, r = .error (.uncaught e) := by
  rcases r with (⟨_, _⟩ | e) | _ <;> simp [crashes]

theorem binary_upload_crashes :
    Due (some Sample.admin) 1 (Sample.aggregateEnv allScored)
      (after Sample.app binaryUpload).world ∧
    (∃ v ∈ trustedIn Sample.app 1 (Sample.aggregateEnv allScored)
      (after Sample.app binaryUpload).world, IsTreeModel Sample.app.python v.modelBytes) ∧
    ¬Tolerates Sample.app (some Sample.admin) 1 (Sample.aggregateEnv allScored)
      (after Sample.app binaryUpload).world := by
  have htrusted : (trustedIn Sample.app 1 (Sample.aggregateEnv allScored)
      (after Sample.app binaryUpload).world).map (·.modelBytes) = [Sample.model, [123, 76]] := by
    decide +kernel
  refine ⟨due_of_running allScored (by decide +kernel), ?_, fun h => ?_⟩
  · obtain ⟨v, hv, hbytes⟩ := List.mem_map.mp (htrusted ▸ List.mem_cons_self :
      Sample.model ∈ (trustedIn Sample.app 1 (Sample.aggregateEnv allScored)
        (after Sample.app binaryUpload).world).map (·.modelBytes))
    exact ⟨v, hv, hbytes ▸ isTreeModel_sample⟩
  · have hcrash : crashes (aggregateRound Sample.app (some Sample.admin) 1
        (Sample.aggregateEnv allScored) (after Sample.app binaryUpload).world).1 = true := by
      decide +kernel
    obtain ⟨e, he⟩ := crashes_iff.mp hcrash
    exact h.handled e he

end Outcome

end FlCoordinator
