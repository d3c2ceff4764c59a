import FlCoordinator.Reputation

/-!
# The baseline of the sudden-drop rule

`evaluate` stores the accuracy of a model as the last one of its org once the model has passed both
gates, and before it raises the trust. With a validation set, no other exit touches it.
-/

namespace FlCoordinator

open Lib

namespace TrustManager

variable {tm : TrustManager} {x : String} {s : Store} {p : Reputation}

/-! ### One call -/

lemma verdict_accepted (hval : tm.validationData = true) {judgement : Judgement}
    {accuracy : Option ℚ} (h : tm.verdict p judgement = .accepted accuracy) :
    ∃ a, accuracy = some a ∧ tm.minAccuracy ≤ a ∧
      ∀ prev, p.lastAccuracy = some prev → tm.python.round (prev - a) ≤ tm.maxAccuracyDrop := by
  unfold verdict at h
  by_cases hlow : p.trust < tm.minTrust
  · rw [if_pos hlow] at h
    cases h
  · rw [if_neg hlow] at h
    cases judgement with
    | unloadable e => cases h
    | unscored msg =>
      simp only [if_pos hval] at h
      cases h
    | scored a =>
      have hnot : ¬tm.validationData = false := by simp [hval]
      simp only [if_neg hnot] at h
      by_cases hmin : a < tm.minAccuracy
      · rw [if_pos hmin] at h
        cases h
      · rw [if_neg hmin] at h
        cases hdrop : p.lastAccuracy.filter
            (fun prev => tm.maxAccuracyDrop < tm.python.round (prev - a)) with
        | some prev =>
          rw [hdrop] at h
          cases h
        | none =>
          rw [hdrop] at h
          refine ⟨a, (Verdict.accepted.inj h).symm, not_lt.mp hmin, fun prev hprev => ?_⟩
          have hsmall := Option.filter_eq_none_iff.mp hdrop prev hprev
          exact not_lt.mp (by simpa using hsmall)

/-- What a call does to the last accuracy: it was `before` and is `after`. -/
inductive Recorded (tm : TrustManager) (before after : Option ℚ) (ev : Evaluation) : Prop
  | rejected (refused : ev.accepted = false) (kept : after = before)
  | accepted (taken : ev.accepted = true) (accuracy : ℚ) (scored : ev.accuracy = some accuracy)
      (stored : after = some accuracy) (floor : tm.minAccuracy ≤ accuracy)
      (drop : ∀ prev, before = some prev →
        tm.python.round (prev - accuracy) ≤ tm.maxAccuracyDrop)

lemma step_reputation (c : Call) :
    (tm.step x c s).reputation x =
      (s.reputation x).map fun p => tm.settle p (tm.verdict p c.judgement) := by
  have h := (evaluate_assess tm s x c.judgement c.numExamples c.now).2 x
  rw [if_pos rfl] at h
  exact h

lemma step_isSome (c : Call) :
    ((tm.step x c s).reputation x).isSome = (s.reputation x).isSome := by
  rw [step_reputation, Option.isSome_map]

lemma recorded_call (hval : tm.validationData = true) (hx : (s.reputation x).isSome = true)
    (c : Call) :
    Recorded tm (s.getOrgLastAccuracy x) ((tm.step x c s).getOrgLastAccuracy x)
      (tm.call x c s).1 := by
  obtain ⟨p, hp⟩ := Option.isSome_iff_exists.mp hx
  have hreport := (evaluate_assess tm s x c.judgement c.numExamples c.now).1
  rw [hp] at hreport
  have hcall : (tm.call x c s).1 = tm.report p c.numExamples (tm.verdict p c.judgement) := hreport
  have hbefore : s.getOrgLastAccuracy x = p.lastAccuracy := by
    rw [lastAccuracy_eq, hp]
    rfl
  have hafter : (tm.step x c s).getOrgLastAccuracy x =
      (tm.settle p (tm.verdict p c.judgement)).lastAccuracy := by
    rw [lastAccuracy_eq, step_reputation, hp]
    rfl
  rw [hcall, hbefore, hafter]
  cases hv : tm.verdict p c.judgement with
  | blocked => exact .rejected rfl rfl
  | penalised penalty accuracy reason => exact .rejected rfl rfl
  | accepted accuracy =>
    obtain ⟨a, rfl, hfloor, hdrop⟩ := verdict_accepted hval hv
    exact .accepted rfl a rfl rfl hfloor hdrop

/-! ### Any number of calls -/

variable (tm x s)

/-- What the accepting calls of a sequence returned. -/
def acceptedEvaluations (cs : List Call) : List Evaluation :=
  ((visits (tm.step x) s cs).map fun p => (tm.call x p.2 p.1).1).filter Evaluation.accepted

/-- The last accuracy of an org over a sequence of calls: there is none before the first
acceptance, and then it is the one of the latest acceptance. -/
structure BaselineKept (cs : List Call) : Prop where
  enrolled : ((Lib.run (tm.step x) s cs).getOrg x).isSome = true
  unset : tm.acceptedEvaluations x s cs = [] →
    (Lib.run (tm.step x) s cs).getOrgLastAccuracy x = none
  latest : ∀ ev, (tm.acceptedEvaluations x s cs).getLast? = some ev →
    ∃ a, ev.accuracy = some a ∧ (Lib.run (tm.step x) s cs).getOrgLastAccuracy x = some a
  kept : ∀ p ∈ visits (tm.step x) s cs, (tm.call x p.2 p.1).1.accepted = false →
    (tm.step x p.2 p.1).getOrgLastAccuracy x = p.1.getOrgLastAccuracy x
  floor : ∀ a, (Lib.run (tm.step x) s cs).getOrgLastAccuracy x = some a → tm.minAccuracy ≤ a
  drop : ∀ p ∈ visits (tm.step x) s cs, ∀ a b, p.1.getOrgLastAccuracy x = some a →
    (tm.step x p.2 p.1).getOrgLastAccuracy x = some b → b < a → a - b ≤ tm.maxAccuracyDrop

variable {tm x s}

lemma acceptedEvaluations_concat (cs : List Call) (c : Call) :
    tm.acceptedEvaluations x s (cs ++ [c]) = tm.acceptedEvaluations x s cs ++
      if (tm.call x c (Lib.run (tm.step x) s cs)).1.accepted then
        [(tm.call x c (Lib.run (tm.step x) s cs)).1]
      else [] := by
  rw [acceptedEvaluations, visits_append, List.map_append, List.filter_append,
    acceptedEvaluations, visits_cons, visits_nil, List.map_singleton, List.filter_singleton]
  cases (tm.call x c (Lib.run (tm.step x) s cs)).1.accepted <;> rfl

lemma run_isSome (tm : TrustManager) (hx : (s.reputation x).isSome = true) (cs : List Call) :
    ((Lib.run (tm.step x) s cs).reputation x).isSome = true := by
  apply run_invariant_all (tm.step x) (I := fun t => (t.reputation x).isSome = true) _ hx
  intro t c ht
  rw [step_isSome]
  exact ht

lemma run_lastAccuracy (hval : tm.validationData = true) (hx : (s.reputation x).isSome = true)
    (hnew : s.getOrgLastAccuracy x = none) (cs : List Call) :
    (Lib.run (tm.step x) s cs).getOrgLastAccuracy x =
        (tm.acceptedEvaluations x s cs).getLast?.bind Evaluation.accuracy ∧
      ∀ ev ∈ tm.acceptedEvaluations x s cs, ∃ a, ev.accuracy = some a ∧ tm.minAccuracy ≤ a := by
  induction cs using List.reverseRecOn with
  | nil => exact ⟨hnew, fun ev hev => (by cases hev)⟩
  | append_singleton cs c ih =>
    obtain ⟨hlast, hall⟩ := ih
    rw [run_append, acceptedEvaluations_concat]
    cases recorded_call hval (run_isSome tm hx cs) c with
    | rejected refused kept =>
      rw [refused, if_neg Bool.false_ne_true, List.append_nil]
      exact ⟨kept.trans hlast, hall⟩
    | accepted taken accuracy scored stored floor drop =>
      rw [if_pos taken, List.getLast?_concat]
      constructor
      · exact stored.trans scored.symm
      · intro ev hev
        rcases List.mem_append.mp hev with hev | hev
        · exact hall ev hev
        · rw [List.mem_singleton.mp hev]
          exact ⟨accuracy, scored, floor⟩

/-- With a validation set and exact arithmetic, over every sequence of evaluations of an org that
none has accepted yet, the accuracy on record is the one of the latest acceptance, passes the gate
for the minimum, and falls by no more than the largest drop in any one call. -/
theorem baseline_kept (hexact : tm.python = .exact) (hval : tm.validationData = true)
    {row : OrgRow} (henrolled : s.getOrg x = some row) (hnew : row.lastAccuracy = none)
    (cs : List Call) : BaselineKept tm x s cs := by
  have hx : (s.reputation x).isSome = true := by
    rw [Store.reputation, henrolled]
    rfl
  have hnone : s.getOrgLastAccuracy x = none := by
    rw [Store.getOrgLastAccuracy, henrolled]
    exact hnew
  obtain ⟨hlast, hall⟩ := run_lastAccuracy hval hx hnone cs
  have hcall : ∀ p ∈ visits (tm.step x) s cs, Recorded tm (p.1.getOrgLastAccuracy x)
      ((tm.step x p.2 p.1).getOrgLastAccuracy x) (tm.call x p.2 p.1).1 := by
    intro p hp
    obtain ⟨pre, post, -, hstate⟩ := (mem_visits _).mp hp
    rw [hstate]
    exact recorded_call hval (run_isSome tm hx pre) p.2
  constructor
  · have hsome := run_isSome tm hx cs
    rw [Store.reputation, Option.isSome_map] at hsome
    exact hsome
  · intro hno
    rw [hlast, hno]
    rfl
  · intro ev hev
    obtain ⟨a, ha, -⟩ := hall ev (List.mem_of_getLast? hev)
    refine ⟨a, ha, ?_⟩
    rw [hlast, hev]
    exact ha
  · intro p hp hrej
    cases hcall p hp with
    | rejected refused kept => exact kept
    | accepted taken => rw [hrej] at taken; cases taken
  · intro a ha
    rw [hlast] at ha
    obtain ⟨ev, hev, hacc⟩ := Option.bind_eq_some_iff.mp ha
    obtain ⟨b, hb, hfloor⟩ := hall ev (List.mem_of_getLast? hev)
    have hab : b = a := Option.some.inj (hb.symm.trans hacc)
    rw [← hab]
    exact hfloor
  · intro p hp a b ha hb hlt
    cases hcall p hp with
    | rejected refused kept =>
      have hab : b = a := by
        rw [kept, ha] at hb
        exact (Option.some.inj hb).symm
      linarith
    | accepted taken accuracy scored stored floor drop =>
      rw [stored] at hb
      have hbacc : accuracy = b := Option.some.inj hb
      have hround : tm.python.round (a - accuracy) = a - accuracy := by
        rw [hexact]
        rfl
      rw [← hbacc, ← hround]
      exact drop a ha

/-- The org is rejected once, accepted twice, and rejected for a sudden drop. -/
theorem baseline_kept_newcomer :
    BaselineKept (exactDefaults true) "x" (Store.empty.insertOrg newcomer 0)
      [⟨.scored (1 / 4), 1, 1⟩, ⟨.scored (9 / 10), 1, 2⟩, ⟨.scored (8 / 10), 1, 3⟩,
        ⟨.scored (6 / 10), 1, 4⟩] :=
  have henrolled : (Store.empty.insertOrg newcomer 0).getOrg "x" = some (newcomer.row 0) := by
    rw [Store.getOrg_insertOrg]
    rfl
  baseline_kept rfl rfl henrolled rfl _

end TrustManager

end FlCoordinator
