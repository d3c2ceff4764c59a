import FlCoordinator.Bagging
import FlCoordinator.LeafPrivacy
import FlCoordinator.Lib.JsonEdits

/-!
# Merging models with noise

The clients send their models through `apply_differential_privacy` before they upload them. For
the coordinator this changes nothing but the outputs of leaves: the same models are usable and
conflict, the shares are the same, and the merged model is the one of the original models with
the noise on its leaves.
-/

namespace FlCoordinator

open Lib

/-! ### One tree -/

section Noised

variable {py : Python} {ops : FloatOps} {noise : ℕ → PyFloat}

/-- The tree with other values at leaves of its `split_conditions`, if at all. -/
def LeavesNoised (tree tree' : Json) : Prop :=
  tree' = tree ∨ ∃ fs cs cs', tree = .obj fs ∧
    tree' = .obj (Json.setField "split_conditions" (.arr cs') fs) ∧
    Json.field? "split_conditions" fs = some (.arr cs) ∧ cs'.length = cs.length ∧
    ∀ i, isLeaf ((Json.field? "left_children" fs).getD (.arr [])) i = .ok false →
      cs'[i]? = cs[i]?

lemma noiseConditions_kept {left : Json} {i k : ℕ} {cs : List Json} {noised : List Json × ℕ}
    (h : noiseConditions ops noise left i k cs = .ok noised) :
    noised.1.length = cs.length ∧
      ∀ n, isLeaf left (i + n) = .ok false → noised.1[n]? = cs[n]? := by
  induction cs generalizing i k noised with
  | nil =>
    obtain rfl := Except.ok.inj h
    exact ⟨rfl, fun _ _ => rfl⟩
  | cons c cs ih =>
    obtain ⟨leaf, hleaf, h⟩ := bind_eq_ok.mp h
    have hrest : ∀ {d k' rest}, noiseConditions ops noise left (i + 1) k' cs = .ok rest →
        (leaf = false → d = c) → (d :: rest.1).length = (c :: cs).length ∧
          ∀ n, isLeaf left (i + n) = .ok false → (d :: rest.1)[n]? = (c :: cs)[n]? := by
      intro d k' rest hrest hd
      obtain ⟨hlength, hkept⟩ := ih hrest
      refine ⟨by simp [hlength], ?_⟩
      intro n hn
      cases n with
      | zero =>
        rw [Nat.add_zero, hleaf] at hn
        rw [List.getElem?_cons_zero, List.getElem?_cons_zero, hd (Except.ok.inj hn)]
      | succ n =>
        have hshift : i + (n + 1) = i + 1 + n := by omega
        rw [hshift] at hn
        exact hkept n hn
    cases leaf with
    | false =>
      obtain ⟨rest, hr, h⟩ := bind_eq_ok.mp h
      obtain rfl := Except.ok.inj h
      exact hrest hr fun _ => rfl
    | true =>
      obtain ⟨x, -, h⟩ := bind_eq_ok.mp h
      obtain ⟨rest, hr, h⟩ := bind_eq_ok.mp h
      obtain rfl := Except.ok.inj h
      exact hrest hr fun hno => by cases hno

lemma noiseTree_noised {tree : Json} {k : ℕ} {noised : Json × ℕ}
    (h : noiseTree ops noise tree k = .ok noised) :
    LeavesNoised tree noised.1 ∧ (Json.Plain tree → Json.Plain noised.1) := by
  obtain ⟨has, -, h⟩ := bind_eq_ok.mp h
  cases has with
  | false =>
    obtain rfl := Except.ok.inj h
    exact ⟨Or.inl rfl, id⟩
  | true =>
    obtain ⟨conditions, hitem, h⟩ := bind_eq_ok.mp h
    obtain ⟨left, hleft, h⟩ := bind_eq_ok.mp h
    obtain ⟨fs, rfl, hfield⟩ := Json.item_eq_ok hitem
    cases conditions with
    | arr cs =>
      obtain ⟨out, hout, h⟩ := bind_eq_ok.mp h
      obtain rfl := Except.ok.inj h
      obtain ⟨hlength, hkept⟩ := noiseConditions_kept hout
      have hleft' : (Json.field? "left_children" fs).getD (.arr []) = left := Except.ok.inj hleft
      constructor
      · refine Or.inr ⟨fs, cs, out.1, rfl, rfl, hfield, hlength, ?_⟩
        intro i hi
        rw [hleft'] at hi
        exact hkept i (by rwa [Nat.zero_add])
      · intro hplain
        have hcs := Json.plain_arr.mp (plain_of_field hplain hfield)
        exact Json.plain_setField (Json.plain_arr.mpr (plain_noiseConditions hcs hout)) hplain
    | str s =>
      obtain ⟨u, -, h⟩ := bind_eq_ok.mp h
      obtain rfl := Except.ok.inj h
      exact ⟨Or.inl rfl, id⟩
    | obj gs =>
      obtain ⟨u, -, h⟩ := bind_eq_ok.mp h
      obtain rfl := Except.ok.inj h
      exact ⟨Or.inl rfl, id⟩
    | _ => cases h

lemma noiseTrees_noised {k : ℕ} {trees trees' : List Json}
    (h : noiseTrees ops noise k trees = .ok trees') :
    List.Forall₂ LeavesNoised trees trees' ∧
      ((∀ t ∈ trees, Json.Plain t) → ∀ t ∈ trees', Json.Plain t) := by
  induction trees generalizing k trees' with
  | nil =>
    obtain rfl := Except.ok.inj h
    exact ⟨.nil, fun _ => by simp⟩
  | cons tree trees ih =>
    obtain ⟨noised, hnoised, h⟩ := bind_eq_ok.mp h
    obtain ⟨rest, hrest, h⟩ := bind_eq_ok.mp h
    obtain rfl := Except.ok.inj h
    obtain ⟨hhead, hplain⟩ := noiseTree_noised hnoised
    obtain ⟨htail, hplains⟩ := ih hrest
    refine ⟨.cons hhead htail, ?_⟩
    intro hall
    rw [List.forall_mem_cons] at hall
    exact List.forall_mem_cons.mpr ⟨hplain hall.1, hplains hall.2⟩

lemma LeavesNoised.setTreeId {tree tree' : Json} (h : LeavesNoised tree tree') (i : ℕ) :
    LeavesNoised (setTreeId i tree) (setTreeId i tree') := by
  rcases h with rfl | ⟨fs, cs, cs', rfl, rfl, hfield, hlength, hkept⟩
  · exact Or.inl rfl
  · refine Or.inr ⟨Json.setField "id" (.int i) fs, cs, cs', rfl, ?_, ?_, hlength, ?_⟩
    · exact congrArg Json.obj (Json.setField_comm (by decide) hfield)
    · rw [Json.field?_setField_ne _ _ (by decide)]
      exact hfield
    · intro n hn
      rw [Json.field?_setField_ne _ _ (by decide)] at hn
      exact hkept n hn

lemma LeavesNoised.renumber {trees trees' : List Json} (h : List.Forall₂ LeavesNoised trees trees') :
    List.Forall₂ LeavesNoised (renumber trees) (FlCoordinator.renumber trees') := by
  have hfrom : ∀ f f' : ℕ → Json → Json,
      (∀ i t t', LeavesNoised t t' → LeavesNoised (f i t) (f' i t')) →
      List.Forall₂ LeavesNoised (trees.mapIdx f) (trees'.mapIdx f') := by
    induction h with
    | nil => exact fun _ _ _ => .nil
    | cons ht h ih =>
      intro f f' hf
      rw [List.mapIdx_cons, List.mapIdx_cons]
      exact .cons (hf 0 _ _ ht) (ih _ _ fun i t t' => hf (i + 1) t t')
  exact hfrom _ _ fun i t t' ht => ht.setTreeId i

lemma LeavesNoised.refl (trees : List Json) : List.Forall₂ LeavesNoised trees trees :=
  List.forall₂_same.mpr fun _ _ => Or.inl rfl

/-! ### One model -/

/-- What was under `trees`, with noise. -/
def TreesNoised (source source' : Json) : Prop :=
  source' = source ∨ ∃ trees trees', source = .arr trees ∧ source' = .arr trees' ∧
    List.Forall₂ LeavesNoised trees trees'

/-- The model with this under `trees`. -/
def ModelShape.around (shape : ModelShape) (source : Json) : Json :=
  .obj (Json.setField "learner" (.obj (Json.setField "gradient_booster" (.obj
    (Json.setField "model" (.obj (Json.setField "trees" source shape.model))
      shape.booster)) shape.learner)) shape.top)

/-- A model and the one that a client sends. -/
structure NoisedModel (model model' : Json) : Prop where
  trees : SameOutcome TreesNoised (getTrees model) (getTrees model')
  schema : schemaOf model = schemaOf model'
  around : ∀ shape source, model = ModelShape.around shape source →
    ∃ source', model' = shape.around source'
  plain : Json.Plain model → Json.Plain model'

lemma noiseTreeList_noised {source source' : Json}
    (h : noiseTreeList ops noise source = .ok source') :
    TreesNoised source source' ∧ (Json.Plain source → Json.Plain source') := by
  cases source with
  | arr trees =>
    obtain ⟨trees', htrees, h⟩ := bind_eq_ok.mp h
    obtain rfl := Except.ok.inj h
    obtain ⟨hnoised, hplain⟩ := noiseTrees_noised htrees
    refine ⟨Or.inr ⟨trees, trees', rfl, rfl, hnoised⟩, ?_⟩
    intro h
    exact Json.plain_arr.mpr (hplain (Json.plain_arr.mp h))
  | _ =>
    obtain ⟨items, -, h⟩ := bind_eq_ok.mp h
    obtain ⟨_, -, h⟩ := bind_eq_ok.mp h
    obtain rfl := Except.ok.inj h
    exact ⟨Or.inl rfl, id⟩

lemma TreesNoised.refl (source : Json) : TreesNoised source source := Or.inl rfl

lemma TreesNoised.truthy {source source' : Json} (h : TreesNoised source source') :
    source'.truthy = source.truthy := by
  rcases h with rfl | ⟨trees, trees', rfl, rfl, h⟩
  · rfl
  · cases h <;> rfl

lemma noiseModel_cases {model model' : Json} (h : noiseModel ops noise model = .ok model') :
    model' = model ∨ Json.modifyKey "learner" (Json.modifyKey "gradient_booster" (Json.modifyKey
      "model" (Json.modifyKey "trees" (noiseTreeList ops noise)))) model = .ok model' := by
  obtain ⟨has, -, h⟩ := bind_eq_ok.mp h
  cases has with
  | false => exact Or.inl (Except.ok.inj h).symm
  | true =>
    obtain ⟨_, -, h⟩ := bind_eq_ok.mp h
    exact Or.inr h

/-- The noise is below the trees, beside everything that a schema is read from. -/
lemma schemaOf_modifyKey {f : Json → Except PyErr Json} {model model' : Json}
    (h : Json.modifyKey "learner" (Json.modifyKey "gradient_booster" f) model = .ok model') :
    schemaOf model = schemaOf model' := by
  apply SameOutcome.eq_iff.mp
  apply Json.bind_get_modifyKey (fun _ => rfl) _ _ h
  intro learner learner' hlearner
  apply SameOutcome.eq_iff.mpr
  have hget : ∀ j d, j ≠ "gradient_booster" →
      (learner'.orElse (.obj [])).get j d = (learner.orElse (.obj [])).get j d := by
    intro j d hj
    rw [Json.orElse, Json.orElse, Json.truthy_modifyKey hlearner]
    split
    · exact Json.get_modifyKey_ne hlearner hj d
    · rfl
  have hdim : numFeature (learner'.orElse (.obj [])) = numFeature (learner.orElse (.obj [])) := by
    rw [numFeature, numFeature, hget _ _ (by decide)]
  rw [hget _ _ (by decide), hdim]

lemma getTrees_eq (model : Json) : getTrees model = model.get "learner" (.obj []) >>= fun learner =>
    learner.get "gradient_booster" (.obj []) >>= fun booster =>
      booster.get "model" (.obj []) >>= fun inner => inner.get "trees" (.arr []) >>= pure := by
  simp only [getTrees, bind_pure]

lemma noiseModel_noised {model model' : Json} (h : noiseModel ops noise model = .ok model') :
    NoisedModel model model' := by
  rcases noiseModel_cases h with rfl | h
  · exact ⟨SameOutcome.refl TreesNoised.refl _, rfl, fun shape source h => ⟨source, h⟩, id⟩
  · constructor
    · rw [getTrees_eq, getTrees_eq]
      apply Json.bind_get_modifyKey TreesNoised.refl _ _ h
      intro learner learner' h
      apply Json.bind_get_modifyKey TreesNoised.refl _ _ h
      intro booster booster' h
      apply Json.bind_get_modifyKey TreesNoised.refl _ _ h
      intro inner inner' h
      apply Json.bind_get_modifyKey TreesNoised.refl _ _ h
      intro source source' h
      exact .ok (noiseTreeList_noised h).1
    · exact schemaOf_modifyKey h
    · rintro shape source rfl
      obtain ⟨l', hl, rfl⟩ := Json.modifyKey_eq_ok (Json.field?_setField_self _ _ _) h
      obtain ⟨b', hb, rfl⟩ := Json.modifyKey_eq_ok (Json.field?_setField_self _ _ _) hl
      obtain ⟨i', hi, rfl⟩ := Json.modifyKey_eq_ok (Json.field?_setField_self _ _ _) hb
      obtain ⟨source', -, rfl⟩ := Json.modifyKey_eq_ok (Json.field?_setField_self _ _ _) hi
      refine ⟨source', ?_⟩
      simp only [ModelShape.around, Json.setField_setField]
    · intro hplain
      have hlist : ∀ u u', noiseTreeList ops noise u = .ok u' → Json.Plain u → Json.Plain u' :=
        fun u u' h => (noiseTreeList_noised h).2
      apply Json.plain_modifyKey _ hplain h
      intro _ _ h hplain
      apply Json.plain_modifyKey _ hplain h
      intro _ _ h hplain
      apply Json.plain_modifyKey _ hplain h
      intro _ _ h hplain
      exact Json.plain_modifyKey hlist hplain h

/-! ### The filter -/

variable (ops)

/-- What a client uploads for a model, in place of the model. -/
def NoisedEntry (entry entry' : Bytes × ℚ) : Prop :=
  entry'.2 = entry.2 ∧ ∃ laplace epsilon,
    applyDifferentialPrivacy ops laplace entry.1 epsilon = .ok entry'.1

variable {ops}

/-- A usable model and the one that a client sends. -/
structure NoisedParsed (p q : Parsed) : Prop where
  weight : p.weight = q.weight
  model : NoisedModel p.model q.model
  plain : Json.Plain p.model
  usable : ∃ source, getTrees p.model = .ok source ∧ source.truthy = true

lemma NoisedEntry.loads {entry entry' : Bytes × ℚ} (h : NoisedEntry ops entry entry') :
    (∃ e, Json.loads entry.1 = .error e ∧ Json.loads entry'.1 = .error e) ∨
      ∃ model model', Json.loads entry.1 = .ok model ∧ Json.loads entry'.1 = .ok model' ∧
        NoisedModel model model' := by
  obtain ⟨-, laplace, epsilon, h⟩ := h
  cases hload : Json.loads entry.1 with
  | error e =>
    simp only [applyDifferentialPrivacy, hload] at h
    rw [← Except.ok.inj h]
    exact Or.inl ⟨e, rfl, hload⟩
  | ok model =>
    simp only [applyDifferentialPrivacy, hload] at h
    obtain ⟨model', hmodel, h⟩ := bind_eq_ok.mp h
    have hnoised := noiseModel_noised hmodel
    rw [← Except.ok.inj h]
    exact Or.inr ⟨model, model', rfl,
      Json.loads_dumpsBytes (hnoised.plain (Json.plain_loads hload)), hnoised⟩

lemma parseModels_noised {ws ws' : List (Bytes × ℚ)} (h : List.Forall₂ (NoisedEntry ops) ws ws')
    (hread : ∀ u ∈ ws ++ ws', py.loads u.1 = Json.loads u.1) :
    SameOutcome (List.Forall₂ NoisedParsed) (parseModels py ws) (parseModels py ws') := by
  induction h with
  | nil => exact .ok .nil
  | @cons entry entry' ws ws' hentry _ ih =>
    obtain ⟨raw, weight⟩ := entry
    obtain ⟨raw', weight'⟩ := entry'
    obtain rfl : weight' = weight := hentry.1
    have ih := ih fun u hu => hread u (by
      rcases List.mem_append.mp hu with hu | hu
      · exact List.mem_append_left _ (List.mem_cons_of_mem _ hu)
      · exact List.mem_append_right _ (List.mem_cons_of_mem _ hu))
    have hhead : py.loads raw = Json.loads raw := hread _ List.mem_cons_self
    have hhead' : py.loads raw' = Json.loads raw' :=
      hread _ (List.mem_append_right _ List.mem_cons_self)
    rcases hentry.loads with ⟨e, hload, hload'⟩ | ⟨model, model', hload, hload', hmodel⟩
    · simp only [parseModels, hhead, hhead', hload, hload']
      split
      · exact ih
      · exact .error _
    · simp only [parseModels, hhead, hhead', hload, hload']
      split
      · apply SameOutcome.bind hmodel.trees.witnessed
        rintro source source' ⟨htrees, hget, -⟩
        apply SameOutcome.bind ih
        intro tail tail' htail
        rw [htrees.truthy]
        apply SameOutcome.ok
        split
        · rename_i htruthy
          exact .cons ⟨rfl, hmodel, Json.plain_loads hload, source, hget, htruthy⟩ htail
        · exact htail
      · exact ih

/-! ### The merge -/

/-- The same schemas, so that the same contributions conflict. -/
lemma distinctSchemas_noised {ps qs : List Parsed} (h : List.Forall₂ NoisedParsed ps qs) :
    distinctSchemas ps = distinctSchemas qs := by
  induction h with
  | nil => rfl
  | cons hpq _ ih => rw [distinctSchemas, distinctSchemas, hpq.model.schema, ih]

lemma map_weight_noised {ps qs : List Parsed} (h : List.Forall₂ NoisedParsed ps qs) :
    ps.map (·.weight) = qs.map (·.weight) := by
  induction h with
  | nil => rfl
  | cons hpq _ ih => rw [List.map_cons, List.map_cons, hpq.weight, ih]

lemma byWeight_noised {ps qs : List Parsed} (h : List.Forall₂ NoisedParsed ps qs) :
    List.Forall₂ NoisedParsed (byWeight ps) (byWeight qs) :=
  forall₂_sortDescending (fun _ _ hpq => hpq.weight) h

lemma shareOf_noised (total : ℚ) {p q : Parsed} (h : NoisedParsed p q) :
    SameOutcome (List.Forall₂ LeavesNoised) (shareOf py total p) (shareOf py total q) := by
  apply SameOutcome.bind h.model.trees
  intro source source' hsource
  rw [h.weight]
  rcases hsource with rfl | ⟨trees, trees', rfl, rfl, hall⟩
  · exact SameOutcome.refl LeavesNoised.refl _
  · have hlength := hall.length_eq
    apply SameOutcome.ok
    rw [hlength]
    exact List.forall₂_take _ hall

lemma bagTrees_noised (total : ℚ) {base base' : Parsed} {rest rest' : List Parsed}
    (hbase : NoisedParsed base base') (hrest : List.Forall₂ NoisedParsed rest rest') :
    SameOutcome (List.Forall₂ LeavesNoised) (bagTrees py base rest total)
      (bagTrees py base' rest' total) := by
  apply SameOutcome.bind hbase.model.trees
  intro source source' hsource
  have hitems : SameOutcome (List.Forall₂ LeavesNoised) source.items source'.items := by
    rcases hsource with rfl | ⟨trees, trees', rfl, rfl, hall⟩
    · exact SameOutcome.refl LeavesNoised.refl _
    · exact .ok hall
  apply SameOutcome.bind hitems
  intro trees trees' htrees
  apply SameOutcome.bind (SameOutcome.mapM hrest fun _ _ => shareOf_noised total)
  intro shares shares' hshares
  exact .ok (List.rel_append htrees (List.rel_flatten hshares))

lemma setModelTrees_beside {ms : List (String × Json)} {v : Json}
    (h : Json.field? "trees" ms = some v) (n : ℕ) :
    ∃ beside, ∀ source trees, trees.length = n →
      setModelTrees trees (.obj (Json.setField "trees" source ms)) =
        .ok (.obj (Json.setField "trees" (.arr (renumber trees)) beside)) := by
  obtain ⟨infos, hinfos⟩ : ∃ infos, infos =
    Json.setField "tree_info" (.arr (List.replicate n (.int 0))) ms := ⟨_, rfl⟩
  obtain ⟨base, hbase⟩ : ∃ base, base = Json.setField "iteration_indptr"
    (.arr ((List.range (n + 1)).map (fun i => .int i))) infos := ⟨_, rfl⟩
  have hinfo : Json.field? "trees" infos = some v := by
    rw [hinfos, Json.field?_setField_ne _ _ (by decide)]
    exact h
  have htrees : Json.field? "trees" base = some v := by
    rw [hbase, Json.field?_setField_ne _ _ (by decide)]
    exact hinfo
  have hfields : ∀ trees : Json, Json.setField "iteration_indptr"
      (.arr ((List.range (n + 1)).map (fun i => .int i)))
      (Json.setField "tree_info" (.arr (List.replicate n (.int 0)))
        (Json.setField "trees" trees ms)) = Json.setField "trees" trees base := by
    intro trees
    rw [Json.setField_comm (by decide) h, ← hinfos, Json.setField_comm (by decide) hinfo, ← hbase]
  have hparam : ∀ trees : Json, Json.field? "gbtree_model_param"
      (Json.setField "trees" trees base) = Json.field? "gbtree_model_param" ms := by
    intro trees
    rw [Json.field?_setField_ne _ _ (by decide), hbase, Json.field?_setField_ne _ _ (by decide),
      hinfos, Json.field?_setField_ne _ _ (by decide)]
  cases hps : Json.field? "gbtree_model_param" ms with
  | none =>
    refine ⟨base, ?_⟩
    intro source trees hn
    simp only [setModelTrees, Json.setField_setField, hn, hfields, hparam, hps]
  | some w =>
    cases w with
    | obj ps =>
      refine ⟨Json.setField "gbtree_model_param"
        (.obj (Json.setField "num_trees" (.str (natStr n)) ps)) base, ?_⟩
      intro source trees hn
      simp only [setModelTrees, Json.setField_setField, hn, hfields, hparam, hps]
      rw [Json.setField_comm (by decide) htrees]
    | _ =>
      refine ⟨base, ?_⟩
      intro source trees hn
      simp only [setModelTrees, Json.setField_setField, hn, hfields, hparam, hps]

lemma setTrees_noised {p q : Parsed} (h : NoisedParsed p q) {trees trees' : List Json}
    (htrees : List.Forall₂ LeavesNoised trees trees') :
    ∃ shape : ModelShape, setTrees p.model trees = .ok (shape.fill (renumber trees)) ∧
      setTrees q.model trees' = .ok (shape.fill (renumber trees')) := by
  obtain ⟨source, hget, htruthy⟩ := h.usable
  obtain ⟨fs, ls, bs, ms, hpath⟩ := treePath_of_truthy hget htruthy
  have haround : p.model = ModelShape.around ⟨fs, ls, bs, ms⟩ source := by
    rw [ModelShape.around, Json.setField_of_field? hpath.trees, Json.setField_of_field? hpath.inner,
      Json.setField_of_field? hpath.booster, Json.setField_of_field? hpath.learner]
    exact hpath.model
  obtain ⟨source', haround'⟩ := h.model.around _ _ haround
  obtain ⟨beside, hbeside⟩ := setModelTrees_beside hpath.trees trees.length
  refine ⟨⟨fs, ls, bs, beside⟩, ?_, ?_⟩
  · rw [haround]
    exact modifyKey_setField (modifyKey_setField (modifyKey_setField (hbeside source trees rfl)))
  · rw [haround']
    exact modifyKey_setField (modifyKey_setField (modifyKey_setField
      (hbeside source' trees' htrees.length_eq.symm)))

lemma plain_bagTrees {base : Parsed} {rest : List Parsed} {total : ℚ} {trees : List Json}
    (hplain : ∀ p ∈ base :: rest, Json.Plain p.model)
    (h : bagTrees py base rest total = .ok trees) : ∀ t ∈ trees, Json.Plain t := by
  intro t ht
  obtain ⟨p, hp, source, items, hsource, hitems, ht⟩ := mem_bagTrees h ht
  exact plain_items (plain_getTrees (hplain p hp) hsource) hitems t ht

/-- The merged models are one model, with trees that differ in the values at leaves. -/
def NoisedResult (out out' : Bytes × MergeInfo) : Prop :=
  out'.2 = out.2 ∧ ∃ shape trees trees', Json.loads out.1 = .ok (ModelShape.fill shape trees) ∧
    Json.loads out'.1 = .ok (shape.fill trees') ∧ List.Forall₂ LeavesNoised trees trees'

lemma NoisedParsed.forall_plain {ps qs : List Parsed} (h : List.Forall₂ NoisedParsed ps qs) :
    (∀ p ∈ ps, Json.Plain p.model) ∧ ∀ q ∈ qs, Json.Plain q.model := by
  induction h with
  | nil => exact ⟨by simp, by simp⟩
  | cons hpq _ ih =>
    exact ⟨List.forall_mem_cons.mpr ⟨hpq.plain, ih.1⟩,
      List.forall_mem_cons.mpr ⟨hpq.model.plain hpq.plain, ih.2⟩⟩

lemma NoisedParsed.usable' {p q : Parsed} (h : NoisedParsed p q) :
    ∃ source, getTrees q.model = .ok source ∧ source.truthy = true := by
  obtain ⟨source, hget, htruthy⟩ := h.usable
  have htrees := h.model.trees
  rw [hget] at htrees
  generalize getTrees q.model = found at htrees ⊢
  cases htrees with
  | ok h => exact ⟨_, rfl, h.truthy.trans htruthy⟩

lemma merged_noised {base base' : Parsed} {rest rest' : List Parsed} (total : ℚ) (n : ℕ)
    (hbase : NoisedParsed base base') (hrest : List.Forall₂ NoisedParsed rest rest') :
    SameOutcome NoisedResult
      (do
        let bagged ← bagTrees py base rest total
        let trees := bagged.take maxGlobalTrees
        let merged ← setTrees base.model trees
        .ok (Json.dumpsBytes merged,
          { numModels := n
            totalTrees := trees.length
            capped := decide (maxGlobalTrees < bagged.length) }))
      (do
        let bagged ← bagTrees py base' rest' total
        let trees := bagged.take maxGlobalTrees
        let merged ← setTrees base'.model trees
        .ok (Json.dumpsBytes merged,
          { numModels := n
            totalTrees := trees.length
            capped := decide (maxGlobalTrees < bagged.length) })) := by
  obtain ⟨hplain, hplain'⟩ := NoisedParsed.forall_plain (.cons hbase hrest)
  apply SameOutcome.bind (bagTrees_noised total hbase hrest).witnessed
  rintro bagged bagged' ⟨hnoised, hbag, hbag'⟩
  have htaken := List.forall₂_take maxGlobalTrees hnoised
  have htrees : ∀ t ∈ bagged.take maxGlobalTrees, Json.Plain t :=
    fun t ht => plain_bagTrees hplain hbag t (List.mem_of_mem_take ht)
  have htrees' : ∀ t ∈ bagged'.take maxGlobalTrees, Json.Plain t :=
    fun t ht => plain_bagTrees hplain' hbag' t (List.mem_of_mem_take ht)
  obtain ⟨shape, hset, hset'⟩ := setTrees_noised hbase htaken
  obtain ⟨source, hget, htruthy⟩ := hbase.usable
  obtain ⟨source', hget', htruthy'⟩ := hbase.usable'
  have hmerged := getTrees_setTrees (hplain base List.mem_cons_self) htrees hget htruthy hset
  have hmerged' := getTrees_setTrees (hplain' base' List.mem_cons_self) htrees' hget' htruthy' hset'
  simp only [hset, hset']
  refine .ok ⟨?_, shape, _, _, Json.loads_dumpsBytes hmerged.1, Json.loads_dumpsBytes hmerged'.1,
    LeavesNoised.renumber htaken⟩
  rw [htaken.length_eq, hnoised.length_eq]

lemma mergeParsed_noised {ps qs : List Parsed} (h : List.Forall₂ NoisedParsed ps qs) :
    SameOutcome NoisedResult (mergeParsed py ps) (mergeParsed py qs) := by
  have hempty : ps.isEmpty = qs.isEmpty := by
    cases h <;> rfl
  have htotal : totalWeight py ps = totalWeight py qs := by
    rw [totalWeight, totalWeight, map_weight_noised h]
  rw [mergeParsed, mergeParsed, distinctSchemas_noised h, hempty, htotal, h.length_eq]
  split_ifs
  · exact .error _
  · apply SameOutcome.bind_same
    intro schemas
    split_ifs
    · apply SameOutcome.bind_same
      intro texts
      exact .error _
    · have hsorted := byWeight_noised h
      cases hp : byWeight ps with
      | nil =>
        rw [hp] at hsorted
        rw [List.forall₂_nil_left_iff.mp hsorted]
        exact .error _
      | cons base rest =>
        rw [hp] at hsorted
        cases hq : byWeight qs with
        | nil =>
          rw [hq] at hsorted
          cases hsorted
        | cons base' rest' =>
          rw [hq, List.forall₂_cons] at hsorted
          exact merged_noised _ _ hsorted.1 hsorted.2

/-- Merging what the clients upload after `apply_differential_privacy`, each with its own noise and
budget, fails exactly as merging their models would, with the same error. Otherwise it reports the
same, and the merged models differ in the values at leaves only. -/
theorem mergeXgboostModels_noised {ws ws' : List (Bytes × ℚ)}
    (h : List.Forall₂ (NoisedEntry ops) ws ws')
    (hread : ∀ u ∈ ws ++ ws', py.loads u.1 = Json.loads u.1) :
    SameOutcome NoisedResult (mergeXgboostModels py ws) (mergeXgboostModels py ws') := by
  rw [mergeXgboostModels_parts, mergeXgboostModels_parts]
  exact SameOutcome.bind (parseModels_noised h hread) fun _ _ => mergeParsed_noised

/-- Two clients with a tree of one leaf each, and different noise. -/
theorem mergeXgboostModels_noised_leafTree :
    SameOutcome NoisedResult
      (mergeXgboostModels .cpython [(Json.dumpsBytes (oneTree.fill [leafTree 1]), 1),
        (Json.dumpsBytes (oneTree.fill [leafTree 2]), 2)])
      (mergeXgboostModels .cpython [(Json.dumpsBytes (oneTree.fill [noisedLeaf 1 2]), 1),
        (Json.dumpsBytes (oneTree.fill [noisedLeaf 2 2]), 2)]) := by
  obtain ⟨-, hout, hout', -⟩ := leafTree_runs
  have hlight : NoisedEntry decimalOps (Json.dumpsBytes (oneTree.fill [leafTree 1]), 1)
      (Json.dumpsBytes (oneTree.fill [noisedLeaf 1 2]), 1) := ⟨rfl, _, _, hout⟩
  have hheavy : NoisedEntry decimalOps (Json.dumpsBytes (oneTree.fill [leafTree 2]), 2)
      (Json.dumpsBytes (oneTree.fill [noisedLeaf 2 2]), 2) := ⟨rfl, _, _, hout'⟩
  have hkept : ∀ v, Json.Plain v →
      Json.dumpsBytes (Json.mapFloats Python.cpython.float v) = Json.dumpsBytes v →
      Python.cpython.loads (Json.dumpsBytes v) = Json.loads (Json.dumpsBytes v) := fun v hv h =>
    Python.loads_eq rfl (Json.loads_dumpsBytes hv)
      (Json.dumpsBytes_inj (Json.plain_mapFloats v hv) hv h)
  refine mergeXgboostModels_noised (.cons hlight (.cons hheavy .nil)) fun u hu => ?_
  fin_cases hu
  · exact hkept _ (plain_oneTree (plain_leafTree 1)) (by decide +kernel)
  · exact hkept _ (plain_oneTree (plain_leafTree 2)) (by decide +kernel)
  · exact hkept _ (plain_oneTree (plain_noisedLeaf 1 2)) (by decide +kernel)
  · exact hkept _ (plain_oneTree (plain_noisedLeaf 2 2)) (by decide +kernel)

end Noised

end FlCoordinator
