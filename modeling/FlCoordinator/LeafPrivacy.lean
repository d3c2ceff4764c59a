import FlCoordinator.MergeSpec
import FlCoordinator.Privacy

/-!
# What the noise hides

Two models of one shape that differ in the outputs of their leaves, and what can still be told
apart once `apply_differential_privacy` has run on both.
-/

namespace FlCoordinator

open Lib

/-! ### Models up to the outputs of their leaves -/

/-- A tree of an XGBoost model without the outputs of its leaves. -/
structure TreeShape where
  leftChildren : List Json
  conditions : List Json
  weights : List Json
  rest : List (String × Json)

namespace TreeShape

/-- The node at a position is a leaf. -/
def leaf (shape : TreeShape) (j : ℕ) : Bool :=
  (shape.leftChildren[j]?).any (fun v => v.same (.int (-1)))

/-- A per-node array with the outputs written at the leaves. -/
def fill (shape : TreeShape) (output : ℕ → PyFloat) (nodes : List Json) : List Json :=
  nodes.mapIdx (fun j v => if shape.leaf j then .float (output j) else v)

/-- The fields of the tree but for `split_conditions`. -/
def frame (shape : TreeShape) (output : ℕ → PyFloat) : List (String × Json) :=
  Json.setField "base_weights" (.arr (shape.fill output shape.weights))
    (Json.setField "left_children" (.arr shape.leftChildren) shape.rest)

/-- The tree as XGBoost records it, with the output of a leaf in both arrays. -/
def tree (shape : TreeShape) (output : ℕ → PyFloat) : Json :=
  .obj (Json.setField "split_conditions" (.arr (shape.fill output shape.conditions))
    (shape.frame output))

end TreeShape

/-- The dicts of an XGBoost model around its tree list. -/
structure ModelShape where
  top : List (String × Json)
  learner : List (String × Json)
  booster : List (String × Json)
  model : List (String × Json)

/-- The model with these trees. -/
def ModelShape.fill (shape : ModelShape) (trees : List Json) : Json :=
  .obj (Json.setField "learner" (.obj (Json.setField "gradient_booster" (.obj
    (Json.setField "model" (.obj (Json.setField "trees" (.arr trees) shape.model))
      shape.booster)) shape.learner)) shape.top)

/-- Two trees that differ in the outputs of their leaves only. -/
def LeafVariants (t t' : Json) : Prop :=
  ∃ (shape : TreeShape) (output output' : ℕ → PyFloat),
    t = shape.tree output ∧ t' = shape.tree output'

/-- A field of a tree. -/
def treeField (key : String) : Json → Option Json
  | .obj fs => Json.field? key fs
  | _ => none

/-- The `split_conditions` of the trees of a model in bytes. -/
def splitConditions (modelBytes : Bytes) : Option (List (Option Json)) :=
  match Json.loads modelBytes with
  | .ok model =>
    match getTrees model with
    | .ok (.arr trees) => some (trees.map (treeField "split_conditions"))
    | _ => none
  | .error _ => none

/-! ### What a run does to a model -/

section Runs

variable {ops : FloatOps} {noise : ℕ → PyFloat}

@[simp] lemma getTrees_fill (shape : ModelShape) (trees : List Json) :
    getTrees (shape.fill trees) = .ok (.arr trees) := by
  simp [getTrees, ModelShape.fill, Json.get, bind, Except.bind]

lemma ModelShape.fill_injective {shape : ModelShape} {trees trees' : List Json}
    (h : shape.fill trees = shape.fill trees') : trees = trees' := by
  have hget := getTrees_fill shape trees
  rw [h, getTrees_fill] at hget
  exact (Json.arr.inj (Except.ok.inj hget)).symm

lemma modifyKey_setField {k : String} {f : Json → Except PyErr Json} {v v' : Json}
    {fs : List (String × Json)} (h : f v = .ok v') :
    Json.modifyKey k f (.obj (Json.setField k v fs)) = .ok (.obj (Json.setField k v' fs)) := by
  simp only [Json.modifyKey, Json.field?_setField_self, h]
  change Except.ok _ = _
  rw [Json.setField_setField]

lemma contains_setField (k : String) (v : Json) (fs : List (String × Json)) :
    Json.contains k (.obj (Json.setField k v fs)) = .ok true := by
  have hfield := Json.field?_setField_self k v fs
  obtain ⟨p, hp, -⟩ := Option.map_eq_some_iff.mp hfield
  have hany : (Json.setField k v fs).any (fun p => p.1 = k) = true :=
    List.any_eq_true.mpr ⟨p, List.mem_of_find?_eq_some hp, by simpa using List.find?_some hp⟩
  rw [Json.contains, hany]

lemma noiseModel_fill {shape : ModelShape} {trees trees' : List Json}
    (h : noiseTrees ops noise 0 trees = .ok trees') :
    noiseModel ops noise (shape.fill trees) = .ok (shape.fill trees') := by
  have hlist : noiseTreeList ops noise (.arr trees) = .ok (.arr trees') := by
    rw [noiseTreeList, h]
    rfl
  have hhas : (shape.fill trees).contains "learner" = .ok true := contains_setField _ _ _
  have hitem : (shape.fill trees).item "learner" = .ok (.obj (Json.setField "gradient_booster"
      (.obj (Json.setField "model" (.obj (Json.setField "trees" (.arr trees) shape.model))
        shape.booster)) shape.learner)) := by
    simp [ModelShape.fill, Json.item]
  exact bind_eq_ok.mpr ⟨true, hhas, bind_eq_ok.mpr ⟨_, hitem, modifyKey_setField
    (modifyKey_setField (modifyKey_setField (modifyKey_setField hlist)))⟩⟩

lemma noiseConditions_ok (ops : FloatOps) (noise : ℕ → PyFloat) (shape : TreeShape) (i k : ℕ)
    (cs : List Json)
    (h : ∀ j c, cs[j]? = some c → shape.leaf (i + j) = true → ∃ x, c = .float x) :
    ∃ noised, noiseConditions ops noise (.arr shape.leftChildren) i k cs = .ok noised := by
  induction cs generalizing i k with
  | nil => exact ⟨_, rfl⟩
  | cons c cs ih =>
    have hleaf : isLeaf (.arr shape.leftChildren) i = .ok (shape.leaf i) := rfl
    have htail : ∀ j d, cs[j]? = some d → shape.leaf (i + 1 + j) = true → ∃ x, d = .float x := by
      intro j d hd hl
      apply h (j + 1) d (by simpa using hd)
      rwa [Nat.add_right_comm, Nat.add_assoc] at hl
    cases hl : shape.leaf i with
    | false =>
      obtain ⟨rest, hrest⟩ := ih (i + 1) k htail
      exact ⟨_, bind_eq_ok.mpr ⟨_, hleaf.trans (congrArg _ hl), bind_eq_ok.mpr ⟨_, hrest, rfl⟩⟩⟩
    | true =>
      obtain ⟨x, rfl⟩ := h 0 c rfl hl
      obtain ⟨rest, hrest⟩ := ih (i + 1) (k + 1) htail
      exact ⟨_, bind_eq_ok.mpr ⟨_, hleaf.trans (congrArg _ hl), bind_eq_ok.mpr ⟨x, rfl,
        bind_eq_ok.mpr ⟨_, hrest, rfl⟩⟩⟩⟩

lemma fill_leaf {shape : TreeShape} {output : ℕ → PyFloat} {nodes : List Json} {j : ℕ} {v : Json}
    (h : (shape.fill output nodes)[j]? = some v) (hl : shape.leaf j = true) :
    v = .float (output j) := by
  rw [TreeShape.fill, List.getElem?_mapIdx] at h
  obtain ⟨w, -, rfl⟩ := Option.map_eq_some_iff.mp h
  rw [if_pos hl]

lemma plain_noiseConditions {left : Json} {i k : ℕ} {cs : List Json} {noised : List Json × ℕ}
    (hp : ∀ c ∈ cs, Json.Plain c) (h : noiseConditions ops noise left i k cs = .ok noised) :
    ∀ c ∈ noised.1, Json.Plain c := by
  induction cs generalizing i k noised with
  | nil =>
    obtain rfl := Except.ok.inj h
    simp
  | cons c cs ih =>
    obtain ⟨hc, hcs⟩ := List.forall_mem_cons.mp hp
    obtain ⟨leaf, -, h⟩ := bind_eq_ok.mp h
    cases leaf with
    | false =>
      obtain ⟨rest, hrest, h⟩ := bind_eq_ok.mp h
      obtain rfl := Except.ok.inj h
      exact List.forall_mem_cons.mpr ⟨hc, ih hcs hrest⟩
    | true =>
      obtain ⟨x, -, h⟩ := bind_eq_ok.mp h
      obtain ⟨rest, hrest, h⟩ := bind_eq_ok.mp h
      obtain rfl := Except.ok.inj h
      exact List.forall_mem_cons.mpr ⟨trivial, ih hcs hrest⟩

lemma noiseTree_tree (ops : FloatOps) (noise : ℕ → PyFloat) (shape : TreeShape)
    (output : ℕ → PyFloat) (k : ℕ) :
    ∃ cs k', noiseTree ops noise (shape.tree output) k =
        .ok (.obj (Json.setField "split_conditions" (.arr cs) (shape.frame output)), k') ∧
      (Json.Plain (shape.tree output) → ∀ c ∈ cs, Json.Plain c) := by
  obtain ⟨noised, hnoised⟩ := noiseConditions_ok ops noise shape 0 k
    (shape.fill output shape.conditions) fun j c hc hl => by
      rw [Nat.zero_add] at hl
      exact ⟨_, fill_leaf hc hl⟩
  have hhas : (shape.tree output).contains "split_conditions" = .ok true :=
    contains_setField _ _ _
  have hitem : (shape.tree output).item "split_conditions" =
      .ok (.arr (shape.fill output shape.conditions)) := by
    simp [TreeShape.tree, Json.item]
  have hleft : (shape.tree output).get "left_children" (.arr []) = .ok (.arr shape.leftChildren) := by
    rw [TreeShape.tree, TreeShape.frame, Json.get, Json.field?_setField_ne _ _ (by decide),
      Json.field?_setField_ne _ _ (by decide), Json.field?_setField_self]
    rfl
  refine ⟨noised.1, noised.2, bind_eq_ok.mpr ⟨true, hhas, bind_eq_ok.mpr ⟨_, hitem,
    bind_eq_ok.mpr ⟨_, hleft, bind_eq_ok.mpr ⟨noised, hnoised, ?_⟩⟩⟩⟩, fun hp => ?_⟩
  · rw [Json.setField_setField]
  · refine plain_noiseConditions (Json.plain_arr.mp ?_) hnoised
    exact plain_of_field hp (Json.field?_setField_self _ _ _)

lemma plain_setField_of {k : String} {v v' : Json} {fs : List (String × Json)}
    (h : Json.Plain (.obj (Json.setField k v fs))) (hv' : Json.Plain v → Json.Plain v') :
    Json.Plain (.obj (Json.setField k v' fs)) := by
  have hv := plain_of_field h (Json.field?_setField_self k v fs)
  have hset := Json.plain_setField (k := k) (hv' hv) h
  rwa [Json.setField_setField] at hset

lemma plain_fill {shape : ModelShape} {trees trees' : List Json}
    (h : Json.Plain (shape.fill trees))
    (htrees : (∀ t ∈ trees, Json.Plain t) → ∀ t ∈ trees', Json.Plain t) :
    Json.Plain (shape.fill trees') := by
  refine plain_setField_of h fun h => plain_setField_of h fun h => plain_setField_of h fun h =>
    plain_setField_of h fun h => ?_
  exact Json.plain_arr.mpr (htrees (Json.plain_arr.mp h))

end Runs

/-! ### Two runs -/

section TwoRuns

variable {ops : FloatOps} {noise noise' : ℕ → PyFloat}

/-- The `base_weights` of trees that differ in their leaves decide whether they differ. -/
lemma frame_eq_iff {shape : TreeShape} {output output' : ℕ → PyFloat} :
    treeField "base_weights" (shape.tree output) = treeField "base_weights" (shape.tree output') ↔
      shape.frame output = shape.frame output' := by
  have hfield : ∀ output, treeField "base_weights" (shape.tree output) =
      some (.arr (shape.fill output shape.weights)) := by
    intro output
    rw [TreeShape.tree, treeField, TreeShape.frame, Json.field?_setField_ne _ _ (by decide),
      Json.field?_setField_self]
  have hframe : ∀ output, Json.field? "base_weights" (shape.frame output) =
      some (.arr (shape.fill output shape.weights)) := fun _ => Json.field?_setField_self _ _ _
  rw [hfield, hfield]
  constructor
  · intro h
    rw [TreeShape.frame, TreeShape.frame, Option.some.inj h]
  · intro h
    rw [← hframe, ← hframe, h]

/-- Two runs over tree lists that differ in their leaves: where the noised conditions agree, the
results agree exactly when the `base_weights` of the inputs do. -/
theorem noiseTrees_variants (ops : FloatOps) (noise noise' : ℕ → PyFloat) {ts ts' : List Json}
    (h : List.Forall₂ LeafVariants ts ts') (k k' : ℕ) :
    ∃ ns ns', noiseTrees ops noise k ts = .ok ns ∧ noiseTrees ops noise' k' ts' = .ok ns' ∧
      ((∀ t ∈ ts, Json.Plain t) → ∀ n ∈ ns, Json.Plain n) ∧
      ((∀ t ∈ ts', Json.Plain t) → ∀ n ∈ ns', Json.Plain n) ∧
      (ns.map (treeField "split_conditions") = ns'.map (treeField "split_conditions") →
        (ns = ns' ↔ ts.map (treeField "base_weights") = ts'.map (treeField "base_weights"))) := by
  induction h generalizing k k' with
  | nil => exact ⟨[], [], rfl, rfl, by simp, by simp, by simp⟩
  | @cons t t' ts ts' htree _ ih =>
    obtain ⟨shape, output, output', rfl, rfl⟩ := htree
    obtain ⟨cs, j, hn, hp⟩ := noiseTree_tree ops noise shape output k
    obtain ⟨cs', j', hn', hp'⟩ := noiseTree_tree ops noise' shape output' k'
    obtain ⟨ns, ns', hns, hns', hplain, hplain', hiff⟩ := ih j j'
    refine ⟨_, _, bind_eq_ok.mpr ⟨_, hn, bind_eq_ok.mpr ⟨_, hns, rfl⟩⟩,
      bind_eq_ok.mpr ⟨_, hn', bind_eq_ok.mpr ⟨_, hns', rfl⟩⟩, fun h => ?_, fun h => ?_, fun h => ?_⟩
    · obtain ⟨ht, hts⟩ := List.forall_mem_cons.mp h
      refine List.forall_mem_cons.mpr ⟨plain_setField_of ht fun _ => ?_, hplain hts⟩
      exact Json.plain_arr.mpr (hp ht)
    · obtain ⟨ht, hts⟩ := List.forall_mem_cons.mp h
      refine List.forall_mem_cons.mpr ⟨plain_setField_of ht fun _ => ?_, hplain' hts⟩
      exact Json.plain_arr.mpr (hp' ht)
    · obtain ⟨hcs, hrest⟩ := List.cons.inj h
      simp only [treeField, Json.field?_setField_self, Option.some.injEq, Json.arr.injEq] at hcs
      subst hcs
      rw [List.cons_eq_cons, List.map_cons, List.map_cons, List.cons_eq_cons, hiff hrest,
        frame_eq_iff]
      refine and_congr_left fun _ => ⟨fun heq => ?_, fun heq => by rw [heq]⟩
      have hfield : ∀ output, Json.field? "base_weights"
          (Json.setField "split_conditions" (.arr cs) (shape.frame output)) =
          treeField "base_weights" (shape.tree output) := by
        intro output
        rw [TreeShape.tree, treeField, Json.field?_setField_ne _ _ (by decide),
          Json.field?_setField_ne _ _ (by decide)]
      rw [← frame_eq_iff, ← hfield, ← hfield, Json.obj.inj heq]

lemma applyDifferentialPrivacy_fill {laplace : ℚ → ℕ → PyFloat} {epsilon : ℚ} {raw : Bytes}
    {shape : ModelShape} {ts ns : List Json} (hraw : Json.loads raw = .ok (shape.fill ts))
    (h : noiseTrees ops (laplace (laplaceScale epsilon)) 0 ts = .ok ns) :
    applyDifferentialPrivacy ops laplace raw epsilon = .ok (Json.dumpsBytes (shape.fill ns)) := by
  rw [applyDifferentialPrivacy, hraw]
  exact bind_eq_ok.mpr ⟨_, noiseModel_fill h, rfl⟩

lemma splitConditions_fill {shape : ModelShape} {ns : List Json}
    (h : Json.Plain (shape.fill ns)) :
    splitConditions (Json.dumpsBytes (shape.fill ns)) =
      some (ns.map (treeField "split_conditions")) := by
  rw [splitConditions, Json.loads_dumpsBytes h]
  simp only [getTrees_fill]

/-- Take two models that differ in the outputs of their leaves only, and noise that makes their
noised `split_conditions` equal. What is uploaded is the same exactly when the `base_weights` of
the two models are, for they go out as they are. -/
theorem outputs_equal_iff {laplace laplace' : ℚ → ℕ → PyFloat} {epsilon : ℚ} {shape : ModelShape}
    {ts ts' : List Json} {raw raw' out out' : Bytes} (hvar : List.Forall₂ LeafVariants ts ts')
    (hraw : Json.loads raw = .ok (shape.fill ts)) (hraw' : Json.loads raw' = .ok (shape.fill ts'))
    (hout : applyDifferentialPrivacy ops laplace raw epsilon = .ok out)
    (hout' : applyDifferentialPrivacy ops laplace' raw' epsilon = .ok out')
    (hnoised : splitConditions out = splitConditions out') :
    out = out' ↔ ts.map (treeField "base_weights") = ts'.map (treeField "base_weights") := by
  obtain ⟨ns, ns', hns, hns', hp, hp', hiff⟩ := noiseTrees_variants ops
    (laplace (laplaceScale epsilon)) (laplace' (laplaceScale epsilon)) hvar 0 0
  have hplain := plain_fill (Json.plain_loads hraw) hp
  have hplain' := plain_fill (Json.plain_loads hraw') hp'
  rw [applyDifferentialPrivacy_fill hraw hns] at hout
  rw [applyDifferentialPrivacy_fill hraw' hns'] at hout'
  obtain rfl := Except.ok.inj hout
  obtain rfl := Except.ok.inj hout'
  rw [splitConditions_fill hplain, splitConditions_fill hplain'] at hnoised
  rw [← hiff (Option.some.inj hnoised)]
  constructor
  · intro h
    exact ModelShape.fill_injective (Json.dumpsBytes_inj hplain hplain' h)
  · rintro rfl
    rfl

/-- Float arithmetic on decimals. -/
def decimalOps : FloatOps where
  add := fun x y => match x, y with
    | .fin a, .fin b => .fin (a.add b)
    | _, _ => .nan
  ofInt := fun n => .ok (.fin (Decimal.ofInt n))
  ofStr := fun _ => .error (.valueError "text")

/-- A tree that is one leaf. -/
def oneLeaf : TreeShape := ⟨[.int (-1)], [.null], [.null], []⟩

def oneTree : ModelShape := ⟨[], [], [], []⟩

/-- The tree of one leaf with the output `n`. -/
def leafTree (n : ℤ) : Json := oneLeaf.tree fun _ => .fin (Decimal.ofInt n)

/-- The tree after noise: the weight as it was, the condition `m`. -/
def noisedLeaf (n m : ℤ) : Json :=
  .obj (Json.setField "split_conditions" (.arr [.float (.fin (Decimal.ofInt m))])
    (oneLeaf.frame fun _ => .fin (Decimal.ofInt n)))

lemma plain_leafTree (n : ℤ) : Json.Plain (leafTree n) := by
  have hempty : Json.Plain (.obj []) := Json.plain_obj.mpr ⟨List.nodup_nil, by simp⟩
  have hnodes : Json.Plain (.arr (oneLeaf.fill (fun _ => .fin (Decimal.ofInt n)) [.null])) := by
    apply Json.plain_arr.mpr
    intro v hv
    obtain ⟨j, hj, rfl⟩ := List.mem_mapIdx.mp hv
    split
    · trivial
    · rw [List.mem_singleton.mp (List.getElem_mem hj)]
      trivial
  have hleft : Json.Plain (.arr oneLeaf.leftChildren) :=
    Json.plain_arr.mpr fun v hv => by
      rw [List.mem_singleton.mp hv]
      trivial
  exact Json.plain_setField hnodes (Json.plain_setField hnodes (Json.plain_setField hleft hempty))

lemma plain_oneTree {t : Json} (h : Json.Plain t) : Json.Plain (oneTree.fill [t]) := by
  have hempty : Json.Plain (.obj []) := Json.plain_obj.mpr ⟨List.nodup_nil, by simp⟩
  exact Json.plain_setField (Json.plain_setField (Json.plain_setField (Json.plain_setField
    (Json.plain_arr.mpr (by simpa using h)) hempty) hempty) hempty) hempty

lemma plain_noisedLeaf (n m : ℤ) : Json.Plain (noisedLeaf n m) :=
  plain_setField_of (plain_leafTree n) fun _ => Json.plain_arr.mpr fun v hv => by
    rw [List.mem_singleton.mp hv]
    trivial

lemma leafTree_runs :
    List.Forall₂ LeafVariants [leafTree 1] [leafTree 2] ∧
      applyDifferentialPrivacy decimalOps (fun _ _ => .fin (Decimal.ofInt 1))
        (Json.dumpsBytes (oneTree.fill [leafTree 1])) 1 =
          .ok (Json.dumpsBytes (oneTree.fill [noisedLeaf 1 2])) ∧
      applyDifferentialPrivacy decimalOps (fun _ _ => .fin (Decimal.ofInt 0))
        (Json.dumpsBytes (oneTree.fill [leafTree 2])) 1 =
          .ok (Json.dumpsBytes (oneTree.fill [noisedLeaf 2 2])) ∧
      splitConditions (Json.dumpsBytes (oneTree.fill [noisedLeaf 1 2])) =
        splitConditions (Json.dumpsBytes (oneTree.fill [noisedLeaf 2 2])) := by
  have hload : ∀ n, Json.loads (Json.dumpsBytes (oneTree.fill [leafTree n])) =
      .ok (oneTree.fill [leafTree n]) := fun n =>
    Json.loads_dumpsBytes (plain_oneTree (plain_leafTree n))
  refine ⟨.cons ⟨oneLeaf, _, _, rfl, rfl⟩ .nil, applyDifferentialPrivacy_fill (hload 1) rfl,
    applyDifferentialPrivacy_fill (hload 2) rfl, ?_⟩
  rw [splitConditions_fill (plain_oneTree (plain_noisedLeaf 1 2)),
    splitConditions_fill (plain_oneTree (plain_noisedLeaf 2 2))]
  rfl

theorem outputs_equal_iff_leafTree :
    Json.dumpsBytes (oneTree.fill [noisedLeaf 1 2]) =
        Json.dumpsBytes (oneTree.fill [noisedLeaf 2 2]) ↔
      [leafTree 1].map (treeField "base_weights") = [leafTree 2].map (treeField "base_weights") := by
  obtain ⟨hvar, hout, hout', hnoised⟩ := leafTree_runs
  exact outputs_equal_iff hvar (Json.loads_dumpsBytes (plain_oneTree (plain_leafTree 1)))
    (Json.loads_dumpsBytes (plain_oneTree (plain_leafTree 2))) hout hout' hnoised

/-- The upload shows the output of the leaf. -/
theorem base_weights_uploaded :
    ¬∀ (laplace laplace' : ℚ → ℕ → PyFloat) (epsilon : ℚ) (shape : ModelShape)
      (ts ts' : List Json) (raw raw' out out' : Bytes), List.Forall₂ LeafVariants ts ts' →
      Json.loads raw = .ok (shape.fill ts) → Json.loads raw' = .ok (shape.fill ts') →
      applyDifferentialPrivacy decimalOps laplace raw epsilon = .ok out →
      applyDifferentialPrivacy decimalOps laplace' raw' epsilon = .ok out' →
      splitConditions out = splitConditions out' → out = out' := by
  intro h
  obtain ⟨hvar, hout, hout', hnoised⟩ := leafTree_runs
  have heq := h _ _ 1 oneTree _ _ _ _ _ _ hvar
    (Json.loads_dumpsBytes (plain_oneTree (plain_leafTree 1)))
    (Json.loads_dumpsBytes (plain_oneTree (plain_leafTree 2))) hout hout' hnoised
  have htrees := ModelShape.fill_injective (Json.dumpsBytes_inj (plain_oneTree (plain_noisedLeaf 1 2))
    (plain_oneTree (plain_noisedLeaf 2 2)) heq)
  have hweights : some (Json.arr [.float (.fin (Decimal.ofInt 1))]) =
      some (Json.arr [.float (.fin (Decimal.ofInt 2))]) :=
    congrArg (fun t => treeField "base_weights" t) (List.cons.inj htrees).1
  simp only [Option.some.injEq, Json.arr.injEq, List.cons.injEq, Json.float.injEq,
    PyFloat.fin.injEq, and_true] at hweights
  exact absurd hweights (by decide +kernel)

end TwoRuns

end FlCoordinator
