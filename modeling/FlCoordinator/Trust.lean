import FlCoordinator.Lib.Python
import FlCoordinator.Store

/-!
# Trust

`TrustManager` of `coordinator/trust.py`, with the float arithmetic of a given interpreter. What
XGBoost makes of the model bytes is an argument.
-/

namespace FlCoordinator

open Lib

/-- The outcome of loading a model and scoring it on the validation set. -/
inductive Judgement
  | unloadable (e : String)
  | unscored (msg : String)
  | scored (accuracy : ℚ)

structure TrustManager where
  python : Python
  validationData : Bool
  minAccuracy : ℚ := python.round (1 / 2)
  maxAccuracyDrop : ℚ := python.round (15 / 100)
  minTrust : ℚ := python.round (3 / 10)
  maxNumExamples : ℤ := 1000000

/-- The dict `evaluate` returns. -/
structure Evaluation where
  accepted : Bool
  trust : ℚ
  weight : ℚ
  accuracy : Option ℚ
  reason : String

/-- `f"{q:.2%}"`. -/
def percentText (py : Python) (q : ℚ) : String :=
  let n := (Decimal.round (py.round (q * 100) * 100) 0).trunc
  let cents := n.natAbs % 100
  (if n < 0 then "-" else "") ++ intText (n.natAbs / 100) ++ "." ++
    (if cents < 10 then "0" else "") ++ intText cents ++ "%"
where
  intText (n : ℕ) : String := String.ofList (Json.natText n)

namespace TrustManager

variable (tm : TrustManager) (s : Store) (orgId : String)

/-- An unknown org has full trust. -/
def currentTrust : ℚ := ((s.getOrg orgId).map (·.trustScore)).getD 1

/-- `_bump`: shift the trust, clamp and persist it. -/
def bump (delta now : ℚ) : ℚ × Store :=
  let new := Store.clampTrust (tm.python.round (currentTrust s orgId + delta))
  (new, s.updateOrgTrust orgId new now)

/-- A penalised rejection. -/
def reject (delta now : ℚ) (accuracy : Option ℚ) (reason : String) : Evaluation × Store :=
  let bumped := bump tm s orgId delta now
  ({ accepted := false, trust := bumped.1, weight := 0, accuracy, reason }, bumped.2)

/-- The acceptance at the end of `evaluate`. -/
def accept (numExamples : ℤ) (accuracy : Option ℚ) (now : ℚ) : Evaluation × Store :=
  let bumped := bump tm s orgId (tm.python.round (2 / 100)) now
  let capped := min (max numExamples 1) tm.maxNumExamples
  ({ accepted := true, trust := bumped.1
     weight := tm.python.round (bumped.1 * tm.python.round capped), accuracy
     reason := "accepted" }, bumped.2)

/-- The accuracy fell too far below the org's last one. -/
def suddenDrop (accuracy : ℚ) : Option ℚ :=
  (s.getOrgLastAccuracy orgId).filter
    (fun prev => tm.maxAccuracyDrop < tm.python.round (prev - accuracy))

/-- `evaluate(org_id, model_bytes, num_examples)`. -/
def evaluate (judgement : Judgement) (numExamples : ℤ) (now : ℚ) : Evaluation × Store :=
  let trust := currentTrust s orgId
  if trust < tm.minTrust then
    ({ accepted := false, trust, weight := 0, accuracy := none
       reason := "trust below minimum" }, s)
  else match judgement with
    | .unloadable e =>
      reject tm s orgId (-tm.python.round (2 / 10)) now none s!"invalid model structure: {e}"
    | .unscored msg =>
      if tm.validationData then
        reject tm s orgId (-tm.python.round (1 / 10)) now none s!"evaluation failed: {msg}"
      else accept tm s orgId numExamples none now
    | .scored accuracy =>
      if tm.validationData = false then accept tm s orgId numExamples none now
      else if accuracy < tm.minAccuracy then
        reject tm s orgId (-tm.python.round (15 / 100)) now (some accuracy)
          (s!"accuracy {percentText tm.python accuracy} below " ++
            percentText tm.python tm.minAccuracy)
      else match suddenDrop tm s orgId accuracy with
        | some prev =>
          reject tm s orgId (-tm.python.round (2 / 10)) now (some accuracy)
            ("suspicious accuracy drop " ++
              percentText tm.python (tm.python.round (prev - accuracy)))
        | none =>
          accept tm (s.setOrgLastAccuracy orgId accuracy) orgId numExamples (some accuracy) now

end TrustManager

end FlCoordinator
