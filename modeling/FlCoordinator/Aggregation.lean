import FlCoordinator.Store
import FlCoordinator.Lib.Python

/-!
# Merging models

Federated bagging of XGBoost JSON models (`coordinator/aggregation.py`), with finite weights.
-/

namespace FlCoordinator

open Lib

/-- The cap on the trees of a global model. -/
def maxGlobalTrees : ℕ := 500

/-! ### Feature schemas -/

/-- A comparable feature-schema key. -/
inductive Schema
  | names (ns : List Json)
  | dim (n : ℤ)

/-- `==` on schema keys. -/
def Schema.same : Schema → Schema → Bool
  | .names ns, .names ms => Json.sameList ns ms
  | .dim n, .dim m => n = m
  | _, _ => false

/-- The keys are put in a set, which hashes them. -/
def Schema.hashable : Schema → Bool
  | .names ns => ns.all Json.hashable
  | .dim _ => true

/-- `int((learner.get("learner_model_param") or {}).get("num_feature", 0))`, where a value or
type error counts as zero. -/
def numFeature (learner : Json) : Except PyErr ℤ := do
  let param ← learner.get "learner_model_param" .null
  let value ← (param.orElse (.obj [])).get "num_feature" (.int 0)
  match value.toInt with
  | .error .typeError => .ok 0
  | .error (.valueError _) => .ok 0
  | r => r

/-- `model_feature_schema` of a parsed model. -/
def schemaOf (mj : Json) : Except PyErr Schema := do
  let learner ← mj.get "learner" (.obj [])
  let names ← (learner.orElse (.obj [])).get "feature_names" .null
  if names.truthy then
    let ns ← names.items
    .ok (.names ns)
  else
    let n ← numFeature (learner.orElse (.obj []))
    .ok (.dim n)

def modelFeatureSchema (py : Python) (raw : Bytes) : Except PyErr Schema := do
  let mj ← py.loads raw
  schemaOf mj

/-- `", ".join(val)`, for strings only. -/
def joinNames (ns : List Json) : Except PyErr String :=
  match ns.mapM Json.str? with
  | some strs => .ok (", ".intercalate strs)
  | none => .error .typeError

def natStr (n : ℕ) : String := String.ofList (Json.natText n)

def describeSchema : Schema → Except PyErr String
  | .names ns => do
    let shown ← joinNames (ns.take 6)
    .ok (natStr ns.length ++ " features [" ++ shown ++ (if 6 < ns.length then "…" else "") ++ "]")
  | .dim n => .ok s!"{String.ofList (Json.intText n)} features (unnamed)"

/-! ### Trees -/

/-- `_get_trees`. -/
def getTrees (modelJson : Json) : Except PyErr Json := do
  let learner ← modelJson.get "learner" (.obj [])
  let booster ← learner.get "gradient_booster" (.obj [])
  let model ← booster.get "model" (.obj [])
  model.get "trees" (.arr [])

/-- `tree["id"] = i` on a dict. -/
def setTreeId (i : ℕ) : Json → Json
  | .obj fs => .obj (Json.setField "id" (.int i) fs)
  | v => v

/-- The trees with their positions as ids. -/
def renumber (trees : List Json) : List Json := trees.mapIdx setTreeId

/-- The arrays and counts of a model that go with its trees. -/
def setModelTrees (trees : List Json) : Json → Except PyErr Json
  | .obj fs =>
    let n := trees.length
    let fs := Json.setField "trees" (.arr (renumber trees)) fs
    let fs := Json.setField "tree_info" (.arr (List.replicate n (.int 0))) fs
    let fs := Json.setField "iteration_indptr"
      (.arr ((List.range (n + 1)).map (fun i => .int i))) fs
    match Json.field? "gbtree_model_param" fs with
    | some (.obj ps) =>
      .ok (.obj (Json.setField "gbtree_model_param"
        (.obj (Json.setField "num_trees" (.str (natStr n)) ps)) fs))
    | _ => .ok (.obj fs)
  | _ => .error .typeError

/-- `_set_trees`. -/
def setTrees (modelJson : Json) (trees : List Json) : Except PyErr Json :=
  Json.modifyKey "learner" (Json.modifyKey "gradient_booster" (Json.modifyKey "model"
    (setModelTrees trees))) modelJson

/-! ### The merge -/

/-- A usable model with its positive weight. -/
structure Parsed where
  model : Json
  weight : ℚ

/-- The filter loop: entries that are not JSON, not positive or without trees are skipped. -/
def parseModels (py : Python) : List (Bytes × ℚ) → Except PyErr (List Parsed)
  | [] => .ok []
  | (raw, weight) :: rest =>
    match py.loads raw with
    | .error e => if e.isDecodeError then parseModels py rest else .error e
    | .ok model =>
      if 0 < weight then do
        let trees ← getTrees model
        let tail ← parseModels py rest
        .ok (if trees.truthy then { model, weight } :: tail else tail)
      else parseModels py rest

/-- The set of schema keys: one of each. -/
def distinctSchemas : List Parsed → Except PyErr (List Schema)
  | [] => .ok []
  | p :: rest => do
    let schema ← schemaOf p.model
    if schema.hashable = false then .error .typeError
    else
      let tail ← distinctSchemas rest
      .ok (schema :: tail.filter (fun t => !schema.same t))

/-- The first `n` elements, for a value that can be sliced. -/
def sliceTrees (trees : Json) (n : ℕ) : Except PyErr (List Json) :=
  match trees with
  | .arr xs => .ok (xs.take n)
  | .str s => .ok ((s.toList.take n).map (fun c => .str (String.singleton c)))
  | _ => .error .typeError

/-- `len(trees)`. -/
def lenTrees : Json → Except PyErr ℕ
  | .arr xs => .ok xs.length
  | .str s => .ok s.length
  | .obj fs => .ok fs.length
  | _ => .error .typeError

/-- The trees of one of the lighter models: its share by weight, one at least. -/
def shareOf (py : Python) (totalWeight : ℚ) (p : Parsed) : Except PyErr (List Json) := do
  let clientTrees ← getTrees p.model
  let len ← lenTrees clientTrees
  let frac := py.round (p.weight / totalWeight)
  sliceTrees clientTrees (max 1 ⌊py.round (len * frac)⌋.toNat)

/-- Heaviest first, equal weights in their order. -/
def byWeight (ps : List Parsed) : List Parsed :=
  ps.insertionSort (fun a b => b.weight ≤ a.weight)

/-- The trees of the merged model before the cap. -/
def bagTrees (py : Python) (base : Parsed) (rest : List Parsed) (totalWeight : ℚ) :
    Except PyErr (List Json) := do
  let trees ← getTrees base.model
  let baseTrees ← trees.items
  let shares ← rest.mapM (shareOf py totalWeight)
  .ok (baseTrees ++ shares.flatten)

/-- `merge_xgboost_models`. -/
def mergeXgboostModels (py : Python) (weightedModels : List (Bytes × ℚ)) :
    Except PyErr (Bytes × MergeInfo) := do
  let parsed ← parseModels py weightedModels
  if parsed.isEmpty then .error (.valueError "No usable models to aggregate")
  else
    let schemas ← distinctSchemas parsed
    if 1 < schemas.length then
      let texts ← schemas.mapM describeSchema
      .error (.valueError ("feature-schema mismatch across contributions: " ++
        " vs ".intercalate (texts.insertionSort (· ≤ ·))))
    else
      let sum := py.sum (parsed.map (·.weight))
      let totalWeight := if sum = 0 then 1 else sum
      match byWeight parsed with
      | [] => .error (.valueError "No usable models to aggregate")
      | base :: rest =>
        let bagged ← bagTrees py base rest totalWeight
        let trees := bagged.take maxGlobalTrees
        let merged ← setTrees base.model trees
        .ok (Json.dumpsBytes merged,
          { numModels := parsed.length
            totalTrees := trees.length
            capped := decide (maxGlobalTrees < bagged.length) })

end FlCoordinator
