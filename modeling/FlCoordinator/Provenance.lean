import FlCoordinator.Lib.Bags
import FlCoordinator.Tolerance

/-!
# Whose trees are merged

The merge concatenates one bag of trees for each model it keeps, the heaviest model's bag whole
and a share of the others', and cuts the result at the cap. This file computes the bags of an
aggregation from the contributions it trusts, each with its org.
-/

namespace FlCoordinator

open Lib

/-! ### The bags of a merge -/

section Merge

variable {py : Python} {total : ℚ} {p : Parsed}

/-- The trees of a model. -/
def treesOf (p : Parsed) : List Json :=
  ((getTrees p.model >>= Json.items).toOption).getD []

/-- How many of its trees a lighter model gives. -/
def shareSize (py : Python) (total : ℚ) (p : Parsed) : ℕ :=
  max 1 ⌊py.round ((treesOf p).length * py.round (p.weight / total))⌋.toNat

/-- The bags of the models that the merge keeps, heaviest first. -/
def bags (py : Python) (cs : List (String × Parsed)) : List (String × List Json) :=
  match cs with
  | [] => []
  | base :: rest => (base.1, treesOf base.2) :: rest.map (fun c =>
      (c.1, (treesOf c.2).take (shareSize py (totalWeight py ((base :: rest).map Prod.snd)) c.2)))

lemma treesOf_eq {source : Json} {trees : List Json} (h : getTrees p.model = .ok source)
    (hi : source.items = .ok trees) : treesOf p = trees := by
  unfold treesOf
  rw [h]
  change (source.items.toOption).getD [] = trees
  rw [hi]
  rfl

lemma shareOf_eq {share : List Json} (h : shareOf py total p = .ok share) :
    share = (treesOf p).take (shareSize py total p) := by
  obtain ⟨source, hsource, h⟩ := bind_eq_ok.mp h
  obtain ⟨len, hlen, h⟩ := bind_eq_ok.mp h
  cases source with
  | arr xs =>
    have htrees : treesOf p = xs := treesOf_eq hsource rfl
    cases hlen
    cases h
    rw [shareSize, htrees]
  | str s =>
    have htrees : treesOf p = s.toList.map (fun c => .str (String.singleton c)) :=
      treesOf_eq hsource rfl
    cases hlen
    cases h
    rw [shareSize, htrees, List.map_take, List.length_map, String.length_toList]
  | _ => cases h

lemma mapM_shareOf {ps : List Parsed} {shares : List (List Json)}
    (h : ps.mapM (shareOf py total) = .ok shares) :
    shares = ps.map (fun p => (treesOf p).take (shareSize py total p)) := by
  induction ps generalizing shares with
  | nil =>
    cases h
    rfl
  | cons p ps ih =>
    rw [List.mapM_cons] at h
    obtain ⟨l, hl, h⟩ := bind_eq_ok.mp h
    obtain ⟨tail, htail, h⟩ := bind_eq_ok.mp h
    cases h
    rw [List.map_cons, shareOf_eq hl, ih htail]

lemma bagTrees_eq {base : String × Parsed} {rest : List (String × Parsed)} {trees : List Json}
    (h : bagTrees py base.2 (rest.map Prod.snd) (totalWeight py ((base :: rest).map Prod.snd)) =
      .ok trees) :
    trees = (labelled (bags py (base :: rest))).map Prod.snd := by
  obtain ⟨source, hsource, h⟩ := bind_eq_ok.mp h
  obtain ⟨baseTrees, hbase, h⟩ := bind_eq_ok.mp h
  obtain ⟨shares, hshares, h⟩ := bind_eq_ok.mp h
  cases h
  rw [map_snd_labelled, bags, List.map_cons, List.flatten_cons, List.map_map,
    treesOf_eq hsource hbase, mapM_shareOf hshares, List.map_map]
  rfl

lemma iterable_of_sliceable {trees : Json} (h : Sliceable trees) : Iterable trees := by
  cases trees with
  | obj fs => trivial
  | _ => exact h

lemma usable_trees {entry : Bytes × ℚ} (h : usable? py entry = some p)
    (hmerged : ∃ trees, getTrees p.model = .ok trees ∧ Iterable trees) : treesOf p ≠ [] := by
  obtain ⟨-, -, -, source, hsource, htruthy⟩ := usable?_eq_some.mp h
  obtain ⟨source', hsource', hiter⟩ := hmerged
  rw [hsource] at hsource'
  cases hsource'
  obtain ⟨trees, htrees⟩ := items_isOk.mpr hiter
  rw [treesOf_eq hsource htrees]
  cases source with
  | arr xs =>
    cases htrees
    intro hnil
    rw [hnil] at htruthy
    cases htruthy
  | str s =>
    cases htrees
    intro hnil
    rw [List.map_eq_nil_iff, String.toList_eq_nil_iff] at hnil
    rw [hnil] at htruthy
    cases htruthy
  | obj fs =>
    cases htrees
    intro hnil
    rw [List.map_eq_nil_iff] at hnil
    rw [hnil] at htruthy
    cases htruthy
  | _ => cases htrees

end Merge

/-! ### The bags of an aggregation -/

section Aggregation

/-- A kept survivor with the model that the merge uses of it. -/
def contributor? (py : Python) (v : Survivor) : Option (String × Parsed) :=
  (usable? py (v.modelBytes, v.weight)).map (fun p => (v.orgId, p))

variable (app : App) (roundId : ℤ) (env : AggregateEnv) (w : World)

/-- The trusted contributions with the schema of the heaviest one, heaviest first. -/
def keptIn : List Survivor :=
  match sortSurvivors (trustedIn app roundId env w) with
  | [] => []
  | v :: vs =>
    match modelFeatureSchema app.python v.modelBytes with
    | .error _ => []
    | .ok canonical => (v :: vs).filter (agrees app.python canonical)

/-- The bags of trees that an aggregation of the round merges, each with its org. -/
def bagsIn : List (String × List Json) :=
  bags app.python ((keptIn app roundId env w).filterMap (contributor? app.python))

variable {app roundId env w} {user : Option FLUser} {resp : AggregateResponse} {t : World}

namespace Aggregated

lemma keptIn_eq (h : Aggregated app user roundId env w resp t) :
    keptIn app roundId env w =
      (sortSurvivors (trustedIn app roundId env w)).filter (agrees app.python h.canonical) := by
  obtain ⟨v, rest, hsort, hschema⟩ := h.combinable.heaviest
  rw [keptIn, hsort]
  simp only [hschema]

lemma weighted_eq (h : Aggregated app user roundId env w resp t) :
    h.gate.weighted = (keptIn app roundId env w).map (fun v => (v.modelBytes, v.weight)) := by
  obtain ⟨-, -, hweighted, -⟩ := schemaGate_eq_ok h.gated
  rw [hweighted, h.survivors_eq, h.keptIn_eq, agreeing]

end Aggregated

lemma contributors_parsed (py : Python) (vs : List Survivor) :
    (vs.filterMap (contributor? py)).map Prod.snd =
      (vs.map (fun v => (v.modelBytes, v.weight))).filterMap (usable? py) := by
  rw [List.map_filterMap, List.filterMap_map]
  apply List.filterMap_congr
  intro v _
  rw [contributor?, Option.map_map, Function.comp_apply]
  exact Option.map_id_apply

/-- The trees of the staged model are those of the bags up to the cap, renumbered. -/
structure StagedBags (app : App) (roundId : ℤ) (env : AggregateEnv) (w : World)
    (resp : AggregateResponse) (bytes : Bytes) : Prop where
  trees : ∃ merged, Json.loads bytes = .ok merged ∧ getTrees merged = .ok (.arr
    (renumber (((labelled (bagsIn app roundId env w)).map Prod.snd).take maxGlobalTrees)))
  models : resp.merge.numModels = (bagsIn app roundId env w).length
  some : bagsIn app roundId env w ≠ []
  filled : ∀ b ∈ bagsIn app roundId env w, b.2 ≠ []

lemma length_bags (py : Python) (cs : List (String × Parsed)) :
    (bags py cs).length = cs.length := by
  cases cs with
  | nil => rfl
  | cons base rest => simp [bags]

lemma map_fst_bags (py : Python) (cs : List (String × Parsed)) :
    (bags py cs).map Prod.fst = cs.map Prod.fst := by
  cases cs with
  | nil => rfl
  | cons base rest => simp [bags]

lemma merge_bags {py : Python} {ws : List (Bytes × ℚ)} {cs : List (String × Parsed)} {bytes : Bytes}
    {info : MergeInfo} (hsorted : ws.Pairwise (fun a b => b.2 ≤ a.2))
    (hcs : cs.map Prod.snd = ws.filterMap (usable? py))
    (h : mergeXgboostModels py ws = .ok (bytes, info)) :
    (∃ merged, Json.loads bytes = .ok merged ∧ getTrees merged = .ok (.arr
      (renumber (((labelled (bags py cs)).map Prod.snd).take maxGlobalTrees)))) ∧
    info.numModels = cs.length ∧ cs ≠ [] ∧ ∀ b ∈ bags py cs, b.2 ≠ [] := by
  obtain ⟨parsed, base, rest, bagged, merged, hparsed, hsort, hbag, hload, htrees, hmodels⟩ :=
    mergeXgboostModels_eq_ok h
  obtain ⟨-, rfl⟩ := parseModels_eq_ok.mp hparsed
  rw [byWeight_usable hsorted, ← hcs] at hsort
  rw [← hcs] at hbag hmodels
  cases cs with
  | nil => cases hsort
  | cons c cs =>
    rw [List.map_cons] at hsort
    cases hsort
    obtain ⟨⟨source, hsource, hiter⟩, hslices⟩ := bagTrees_isOk.mp ⟨bagged, hbag⟩
    have hbagged := bagTrees_eq hbag
    -- every model that is merged has a tree
    have hfull : ∀ d ∈ c :: cs, (∃ trees, getTrees d.2.model = .ok trees ∧ Iterable trees) →
        treesOf d.2 ≠ [] := by
      intro d hd hread
      have hmem : d.2 ∈ ws.filterMap (usable? py) := hcs ▸ List.mem_map_of_mem hd
      obtain ⟨e, -, hused⟩ := List.mem_filterMap.mp hmem
      exact usable_trees hused hread
    refine ⟨⟨merged, hload, by rw [htrees, hbagged]⟩, by simpa using hmodels, by simp, ?_⟩
    rw [bags, List.forall_mem_cons]
    refine ⟨hfull c List.mem_cons_self ⟨source, hsource, hiter⟩, fun b hb => ?_⟩
    obtain ⟨d, hd, rfl⟩ := List.mem_map.mp hb
    obtain ⟨trees, htrees, hslice⟩ := hslices d.2 (List.mem_map_of_mem hd)
    have hne := hfull d (List.mem_cons_of_mem _ hd)
      ⟨trees, htrees, iterable_of_sliceable hslice⟩
    dsimp only
    rw [Ne, List.take_eq_nil_iff, not_or]
    refine ⟨?_, hne⟩
    rw [shareSize]
    omega

lemma Aggregated.stagedBags (h : Aggregated app user roundId env w resp t) :
    StagedBags app roundId env w resp h.bytes := by
  have hsorted : h.gate.weighted.Pairwise (fun a b => b.2 ≤ a.2) := by
    obtain ⟨-, -, hweighted, -⟩ := schemaGate_eq_ok h.gated
    rw [hweighted]
    exact agreeing_sorted
  have hcs := contributors_parsed app.python (keptIn app roundId env w)
  rw [← h.weighted_eq] at hcs
  obtain ⟨htrees, hmodels, hsome, hfilled⟩ := merge_bags hsorted hcs h.merged
  refine ⟨htrees, ?_, ?_, hfilled⟩
  · rw [h.response.2.1, hmodels, bagsIn, length_bags]
  · rw [bagsIn, ← List.length_pos_iff, length_bags, List.length_pos_iff]
    exact hsome

/-! ### Owners of trees -/

/-- The org owns a tree of the staged model: the tree at some place of the file is, but for its
id, the one at that place among the bagged trees, and comes from a bag of the org. -/
def OwnsTree (app : App) (roundId : ℤ) (env : AggregateEnv) (w : World) (resp : AggregateResponse)
    (t : World) (x : String) : Prop :=
  ∃ g bytes merged trees i tree, t.store.getGlobalModel resp.versionId = some g ∧
    t.files g.modelPath = some bytes ∧ Json.loads bytes = .ok merged ∧
    getTrees merged = .ok (.arr trees) ∧ trees[i]? = some (setTreeId i tree) ∧
    (labelled (bagsIn app roundId env w))[i]? = some (x, tree)

lemma Aggregated.version_staged (h : Aggregated app user roundId env w resp t) :
    t.store.getGlobalModel resp.versionId =
      some (stagedVersion app h.row roundId h.gate h.bytes h.info env resp.versionId) := by
  rw [h.store, h.version]
  exact getGlobalModel_stagedStore _ _ _ _ _ _ _ _

/-- The owners are the labels that the cap leaves. -/
theorem Aggregated.ownsTree_iff (h : Aggregated app user roundId env w resp t) {x : String} :
    OwnsTree app roundId env w resp t x ↔ x ∈ leading maxGlobalTrees (bagsIn app roundId env w) := by
  obtain ⟨⟨merged, hload, htrees⟩, -⟩ := h.stagedBags
  have hfile : t.files (roundModelPath app.modelDir roundId) = some h.bytes := by
    rw [h.files]
    exact Function.update_self _ _ _
  have hplace : ∀ i : ℕ, (renumber (((labelled (bagsIn app roundId env w)).map Prod.snd).take
      maxGlobalTrees))[i]? =
      ((labelled (bagsIn app roundId env w)).take maxGlobalTrees)[i]?.map
        (fun p => setTreeId i p.2) := by
    intro i
    rw [renumber, List.getElem?_mapIdx, ← List.map_take, List.getElem?_map, Option.map_map]
    rfl
  rw [leading, List.mem_map]
  constructor
  · rintro ⟨g, bytes, merged', trees, i, tree, hg, hbytes, hload', htrees', hi, hlabel⟩
    rw [h.version_staged] at hg
    cases hg
    rw [stagedVersion, hfile] at hbytes
    cases hbytes
    rw [hload] at hload'
    cases hload'
    rw [htrees] at htrees'
    cases htrees'
    rw [hplace] at hi
    obtain ⟨p, hp, -⟩ := Option.map_eq_some_iff.mp hi
    have hmem := List.mem_of_getElem? hp
    rw [List.getElem?_take] at hp
    split at hp
    · rw [hp] at hlabel
      cases hlabel
      exact ⟨(x, tree), hmem, rfl⟩
    · cases hp
  · rintro ⟨p, hp, rfl⟩
    obtain ⟨i, hi⟩ := List.mem_iff_getElem?.mp hp
    refine ⟨_, h.bytes, merged, _, i, p.2, h.version_staged, hfile, hload, htrees, ?_, ?_⟩
    · rw [hplace, hi]
      rfl
    · rw [List.getElem?_take] at hi
      split at hi
      · exact hi
      · cases hi

lemma Aggregated.trusted_of_owns (h : Aggregated app user roundId env w resp t) {x : String}
    (hx : OwnsTree app roundId env w resp t x) :
    ∃ v ∈ keptIn app roundId env w, v.orgId = x := by
  obtain ⟨b, hb, rfl, -⟩ := mem_leading (h.ownsTree_iff.mp hx)
  have horg : b.1 ∈ (bagsIn app roundId env w).map Prod.fst := List.mem_map_of_mem hb
  rw [bagsIn, map_fst_bags] at horg
  obtain ⟨c, hc, hbc⟩ := List.mem_map.mp horg
  obtain ⟨v, hv, hused⟩ := List.mem_filterMap.mp hc
  obtain ⟨p, -, rfl⟩ := Option.map_eq_some_iff.mp hused
  exact ⟨v, hv, hbc⟩

end Aggregation

/-! ### Orgs that contribute nothing -/

section Idle

variable {app : App} {roundId : ℤ} {env : AggregateEnv} {w : World} {user : Option FLUser}
  {resp : AggregateResponse} {t : World}

lemma acceptedOrgsOf_sublist (results : List ContributorResult) :
    (acceptedOrgsOf results).Sublist (results.map (·.orgId)) :=
  List.filter_sublist.map _

lemma Aggregated.kept_orgs (h : Aggregated app user roundId env w resp t)
    (hone : ((w.store.getAcceptedModels roundId).map (·.orgId)).Nodup) :
    ((keptIn app roundId env w).map (·.orgId)).Perm resp.acceptedOrgs ∧
      ((keptIn app roundId env w).map (·.orgId)).Nodup := by
  obtain ⟨-, horgs, -, hacc⟩ := schemaGate_spec h.gated
  have hresults : (h.tally.results.map (·.orgId)).Nodup := by
    rw [h.scored.results_orgs]
    exact hone
  have htrusted : ((trustedIn app roundId env w).map (·.orgId)).Nodup := by
    rw [← h.survivors_eq, h.scored.survivors_orgs]
    exact hresults.sublist (acceptedOrgsOf_sublist _)
  have hkept : ((keptIn app roundId env w).map (·.orgId)).Nodup := by
    rw [h.keptIn_eq]
    refine List.Nodup.sublist (List.filter_sublist.map _) ?_
    exact (((List.perm_insertionSort _ _).map _).nodup_iff).mpr htrusted
  refine ⟨?_, hkept⟩
  rw [List.perm_ext_iff_of_nodup hkept]
  · intro x
    rw [h.response.1, hacc, ← h.scored.survivors_orgs, h.survivors_eq, h.keptIn_eq]
    simp only [List.mem_map, List.mem_filter, mem_sortSurvivors]
    constructor
    · rintro ⟨v, ⟨hv, hfits⟩, rfl⟩
      refine ⟨⟨v, hv, rfl⟩, fun u hu horg => ?_⟩
      rw [List.inj_on_of_nodup_map htrusted hu hv horg]
      exact agrees_eq_true.mp hfits
    · rintro ⟨⟨v, hv, rfl⟩, hfits⟩
      exact ⟨v, ⟨hv, agrees_eq_true.mpr (hfits v hv rfl)⟩, rfl⟩
  · rw [h.response.1]
    refine List.Nodup.sublist (acceptedOrgsOf_sublist _) ?_
    rw [horgs]
    exact hresults

/-- The merge can use the survivor: a JSON model with trees, of positive weight. -/
def Usable (py : Python) (v : Survivor) : Prop :=
  0 < v.weight ∧ ∃ model trees, py.loads v.modelBytes = .ok model ∧
    getTrees model = .ok trees ∧ trees.truthy = true

lemma contributor?_isSome {py : Python} {v : Survivor} :
    (contributor? py v).isSome ↔ Usable py v := by
  rw [contributor?, Option.isSome_map, Option.isSome_iff_exists]
  constructor
  · rintro ⟨p, hp⟩
    obtain ⟨hload, -, hpos, trees, htrees, htruthy⟩ := usable?_eq_some.mp hp
    exact ⟨hpos, p.model, trees, hload, htrees, htruthy⟩
  · rintro ⟨hpos, model, trees, hload, htrees, htruthy⟩
    exact ⟨⟨model, v.weight⟩, usable?_eq_some.mpr ⟨hload, rfl, hpos, trees, htrees, htruthy⟩⟩

/-- How many trees each model gives: the heaviest one all of them, the others their shares. -/
def treeCounts (py : Python) (cs : List (String × Parsed)) : List ℕ :=
  match cs with
  | [] => []
  | base :: rest => (treesOf base.2).length :: rest.map (fun c =>
      min (shareSize py (totalWeight py ((base :: rest).map Prod.snd)) c.2) (treesOf c.2).length)

lemma treeCounts_eq (py : Python) (cs : List (String × Parsed)) :
    treeCounts py cs = (bags py cs).map (fun b => b.2.length) := by
  cases cs with
  | nil => rfl
  | cons base rest =>
    simp only [treeCounts, bags, List.map_cons, List.map_map, Function.comp_def, List.length_take]

/-- Every accepted org owns a tree of the staged model and is counted in it. -/
structure NoIdleOrg (app : App) (roundId : ℤ) (env : AggregateEnv) (w : World)
    (resp : AggregateResponse) (t : World) : Prop where
  owned : ∀ x ∈ resp.acceptedOrgs, OwnsTree app roundId env w resp t x
  counted : resp.merge.numModels = resp.acceptedOrgs.length

/-- The merge can use every trusted contribution of the schema, and the trees of all but the
lightest one are fewer than the cap. -/
structure AllContribute (app : App) (roundId : ℤ) (env : AggregateEnv) (w : World) : Prop where
  usable : ∀ v ∈ keptIn app roundId env w, Usable app.python v
  room :
    (treeCounts app.python
      ((keptIn app roundId env w).filterMap (contributor? app.python))).dropLast.sum <
    maxGlobalTrees

lemma length_filterMap_contributor {py : Python} {vs : List Survivor} :
    (vs.filterMap (contributor? py)).length = vs.length ↔ ∀ v ∈ vs, Usable py v := by
  rw [List.length_filterMap_eq_countP, List.countP_eq_length]
  exact forall₂_congr fun v _ => contributor?_isSome

/-- When an aggregation that succeeds gives every org that it accepts a tree of the staged
model. -/
theorem noIdleOrg_iff {es : List Event} (hstore : w.store = (after app es).world.store)
    (hone : OneEach w.store roundId) (hok : (aggregateRound app user roundId env w).1 = .ok resp) :
    NoIdleOrg app roundId env w resp (aggregateRound app user roundId env w).2 ↔
      AllContribute app roundId env w := by
  obtain ⟨done⟩ := aggregated_of_ok hok
  have hnodup : ((w.store.getAcceptedModels roundId).map (·.orgId)).Nodup := by
    rw [hstore] at hone ⊢
    exact (getAcceptedModels_orgs app es roundId).nodup_iff.mpr hone
  obtain ⟨hperm, hkept⟩ := done.kept_orgs hnodup
  obtain ⟨-, hmodels, hsome, hfilled⟩ := done.stagedBags
  have hlength : resp.acceptedOrgs.length = (keptIn app roundId env w).length := by
    rw [← hperm.length_eq, List.length_map]
  have hcounted : resp.merge.numModels = resp.acceptedOrgs.length ↔
      ∀ v ∈ keptIn app roundId env w, Usable app.python v := by
    rw [hmodels, hlength, bagsIn, length_bags, length_filterMap_contributor]
  -- where every survivor is used, each accepted org has a bag
  have howned : (∀ v ∈ keptIn app roundId env w, Usable app.python v) →
      ((∀ x ∈ resp.acceptedOrgs,
        OwnsTree app roundId env w resp (aggregateRound app user roundId env w).2 x) ↔
      (treeCounts app.python
        ((keptIn app roundId env w).filterMap (contributor? app.python))).dropLast.sum <
        maxGlobalTrees) := by
    intro hall
    have horgs : (bagsIn app roundId env w).map Prod.fst =
        (keptIn app roundId env w).map (·.orgId) := by
      rw [bagsIn, map_fst_bags, List.map_filterMap, ← List.filterMap_eq_map]
      apply List.filterMap_congr
      intro v hv
      obtain ⟨c, hc⟩ := Option.isSome_iff_exists.mp (contributor?_isSome.mpr (hall v hv))
      obtain ⟨p, -, rfl⟩ := Option.map_eq_some_iff.mp hc
      rw [hc]
      rfl
    rw [treeCounts_eq, ← bagsIn, ← forall_mem_leading_iff hsome hfilled (horgs ▸ hkept)]
    constructor
    · intro h b hb
      rw [← done.ownsTree_iff]
      apply h
      rw [← hperm.mem_iff, ← horgs]
      exact List.mem_map_of_mem hb
    · intro h x hx
      rw [done.ownsTree_iff]
      rw [← hperm.mem_iff, ← horgs] at hx
      obtain ⟨b, hb, rfl⟩ := List.mem_map.mp hx
      exact h b hb
  constructor
  · intro h
    have hall := hcounted.mp h.counted
    exact ⟨hall, (howned hall).mp h.owned⟩
  · intro h
    exact ⟨(howned h.usable).mpr h.room, hcounted.mpr h.usable⟩

/-- A model without trees. -/
def emptyModel : Bytes :=
  encode (Sample.object ("\"learner\":" ++ Sample.object (
    "\"feature_names\":[\"f\"],\"gradient_booster\":" ++
    Sample.object ("\"model\":" ++ Sample.object "\"trees\":[]"))))

/-- Org y uploads a model without trees. -/
def emptyUpload : List Event :=
  [Sample.enroll "x" [1] 11, Sample.enroll "y" [2] 12, Sample.start none,
    Sample.challenge "a" (Sample.certOf "x" [1] 11), Sample.challenge "b" (Sample.certOf "y" [2] 12),
    Sample.contribute "x" "a" [1] 11 Sample.model, Sample.contribute "y" "b" [2] 12 emptyModel,
    Sample.resume, Sample.resume]

/-- The accepted orgs and the number of models in a response. -/
def participation (r : Except Failure AggregateResponse) : Option (List String × ℕ) :=
  r.toOption.map (fun resp => (resp.acceptedOrgs, resp.merge.numModels))

lemma participation_eq_some {r : Except Failure AggregateResponse} {orgs : List String} {n : ℕ}
    (h : participation r = some (orgs, n)) :
    ∃ resp, r = .ok resp ∧ resp.acceptedOrgs = orgs ∧ resp.merge.numModels = n := by
  cases r with
  | error e => cases h
  | ok resp =>
    obtain ⟨horgs, hn⟩ := Prod.mk.inj (Option.some.inj h)
    exact ⟨resp, rfl, horgs, hn⟩

theorem noIdleOrg_iff_emptyUpload :
    ∃ resp : AggregateResponse, resp.acceptedOrgs = ["x", "y"] ∧
      (NoIdleOrg Sample.app 1 (Sample.aggregateEnv allScored)
        (after Sample.app emptyUpload).world resp
        (aggregateRound Sample.app (some Sample.admin) 1 (Sample.aggregateEnv allScored)
          (after Sample.app emptyUpload).world).2 ↔
      AllContribute Sample.app 1 (Sample.aggregateEnv allScored)
        (after Sample.app emptyUpload).world) := by
  have hone : ((after Sample.app emptyUpload).world.store.acceptedIn 1).map (·.orgId) =
      ["x", "y"] := by decide +kernel
  have hresp : participation (aggregateRound Sample.app (some Sample.admin) 1
      (Sample.aggregateEnv allScored) (after Sample.app emptyUpload).world).1 =
      some (["x", "y"], 1) := by decide +kernel
  obtain ⟨resp, hok, horgs, -⟩ := participation_eq_some hresp
  refine ⟨resp, horgs, noIdleOrg_iff rfl ?_ hok⟩
  rw [OneEach, hone]
  decide

/-- Org y is accepted, and none of its trees are merged. -/
theorem empty_model_accepted :
    OneEach (after Sample.app emptyUpload).world.store 1 ∧ ∃ resp : AggregateResponse,
      (aggregateRound Sample.app (some Sample.admin) 1 (Sample.aggregateEnv allScored)
        (after Sample.app emptyUpload).world).1 = .ok resp ∧
      ¬NoIdleOrg Sample.app 1 (Sample.aggregateEnv allScored)
        (after Sample.app emptyUpload).world resp
        (aggregateRound Sample.app (some Sample.admin) 1 (Sample.aggregateEnv allScored)
          (after Sample.app emptyUpload).world).2 := by
  have hone : ((after Sample.app emptyUpload).world.store.acceptedIn 1).map (·.orgId) =
      ["x", "y"] := by decide +kernel
  have hresp : participation (aggregateRound Sample.app (some Sample.admin) 1
      (Sample.aggregateEnv allScored) (after Sample.app emptyUpload).world).1 =
      some (["x", "y"], 1) := by decide +kernel
  obtain ⟨resp, hok, horgs, hmodels⟩ := participation_eq_some hresp
  refine ⟨by rw [OneEach, hone]; decide, resp, hok, fun h => ?_⟩
  have hcounted := h.counted
  rw [horgs, hmodels] at hcounted
  cases hcounted

end Idle

end FlCoordinator
