import FlCoordinator.Lib.JsonText

/-!
# Client-side differential privacy

`apply_differential_privacy` of `client_ref/privacy.py`. Float addition and the conversions to
float are arguments, and so are the draws of the Laplace noise.
-/

namespace FlCoordinator

open Lib

/-- Python's arithmetic on floats, as far as the noise needs it. -/
structure FloatOps where
  add : PyFloat → PyFloat → PyFloat
  ofInt : ℤ → Except PyErr PyFloat
  ofStr : String → Except PyErr PyFloat

/-- `float(v)`. -/
def FloatOps.float (ops : FloatOps) : Json → Except PyErr PyFloat
  | .float x => .ok x
  | .int n => ops.ofInt n
  | .bool b => ops.ofInt (if b then 1 else 0)
  | .str s => ops.ofStr s
  | _ => .error .typeError

/-- `i < len(left_children) and left_children[i] == -1`. -/
def isLeaf (leftChildren : Json) (i : ℕ) : Except PyErr Bool :=
  match leftChildren with
  | .arr ls => .ok ((ls[i]?).any (fun v => v.same (.int (-1))))
  | .str _ => .ok false
  | .obj fs =>
    if i < fs.length then .error (.keyError (String.ofList (Json.natText i))) else .ok false
  | _ => .error .typeError

section Noise

variable (ops : FloatOps) (noise : ℕ → PyFloat)

/-- The loop over the conditions of a tree from position `i`, with the draws from the `k`-th on. -/
def noiseConditions (leftChildren : Json) : ℕ → ℕ → List Json → Except PyErr (List Json × ℕ)
  | _, k, [] => .ok ([], k)
  | i, k, c :: cs => do
    let leaf ← isLeaf leftChildren i
    if leaf then
      let x ← ops.float c
      let rest ← noiseConditions leftChildren (i + 1) (k + 1) cs
      .ok (.float (ops.add x (noise k)) :: rest.1, rest.2)
    else
      let rest ← noiseConditions leftChildren (i + 1) k cs
      .ok (c :: rest.1, rest.2)

/-- The same loop where `conditions` is no list, so that it fails at the first leaf. -/
def refuseLeaves (leftChildren : Json) (failure : ℕ → PyErr) : List ℕ → Except PyErr Unit
  | [] => .ok ()
  | i :: is => do
    let leaf ← isLeaf leftChildren i
    if leaf then .error (failure i) else refuseLeaves leftChildren failure is

/-- The error of `s[i] = float(s[i]) + ..` on a string. -/
def textFailure (s : String) (i : ℕ) : PyErr :=
  match ops.ofStr (String.ofList (s.toList[i]?).toList) with
  | .error e => e
  | .ok _ => .typeError

/-- One tree, and the number of the next draw. -/
def noiseTree (tree : Json) (k : ℕ) : Except PyErr (Json × ℕ) := do
  let has ← tree.contains "split_conditions"
  if has then
    let conditions ← tree.item "split_conditions"
    let leftChildren ← tree.get "left_children" (.arr [])
    match tree, conditions with
    | .obj fs, .arr cs =>
      let noised ← noiseConditions ops noise leftChildren 0 k cs
      .ok (.obj (Json.setField "split_conditions" (.arr noised.1) fs), noised.2)
    | _, .str s =>
      let _ ← refuseLeaves leftChildren (textFailure ops s) (List.range s.length)
      .ok (tree, k)
    | _, .obj gs =>
      let _ ← refuseLeaves leftChildren (fun i => .keyError (String.ofList (Json.natText i)))
        (List.range gs.length)
      .ok (tree, k)
    | _, _ => .error .typeError
  else .ok (tree, k)

def noiseTrees : ℕ → List Json → Except PyErr (List Json)
  | _, [] => .ok []
  | k, tree :: trees => do
    let noised ← noiseTree ops noise tree k
    let rest ← noiseTrees noised.2 trees
    .ok (noised.1 :: rest)

/-- `for tree in trees`, which changes the elements of a list. -/
def noiseTreeList : Json → Except PyErr Json
  | .arr trees => do
    let noised ← noiseTrees ops noise 0 trees
    .ok (.arr noised)
  | v => do
    let items ← v.items
    let _ ← noiseTrees ops noise 0 items
    .ok v

/-- The parsed model with noise on its leaves. -/
def noiseModel (modelJson : Json) : Except PyErr Json := do
  let has ← modelJson.contains "learner"
  if has then
    let _ ← modelJson.item "learner"
    Json.modifyKey "learner" (Json.modifyKey "gradient_booster" (Json.modifyKey "model"
      (Json.modifyKey "trees" (noiseTreeList ops noise)))) modelJson
  else .ok modelJson

end Noise

/-- The scale of the noise for a privacy budget. -/
def laplaceScale (epsilon : ℚ) : ℚ := (1 / 10) / max epsilon (1 / 100)

/-- `apply_differential_privacy(model_raw_bytes, epsilon)`: bytes that are not JSON are returned
as they are. -/
def applyDifferentialPrivacy (ops : FloatOps) (laplace : ℚ → ℕ → PyFloat) (modelRawBytes : Bytes)
    (epsilon : ℚ) : Except PyErr Bytes :=
  match Json.loads modelRawBytes with
  | .error _ => .ok modelRawBytes
  | .ok modelJson => do
    let noised ← noiseModel ops (laplace (laplaceScale epsilon)) modelJson
    .ok (Json.dumpsBytes noised)

end FlCoordinator
