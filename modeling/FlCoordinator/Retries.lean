import FlCoordinator.Intake
import FlCoordinator.Scoring

/-!
# Repeated aggregations

A call that fails after its scoring loop leaves the round running and the trust scores changed.
The next call scores the same contributions again. Once a call has staged a model, the round is
closed and no call scores it any more.
-/

namespace FlCoordinator

open Lib

/-! ### One scoring -/

section Once

variable {tm : TrustManager} {env : ScoreEnv} {files : String → Option Bytes} {x : String}

lemma rescore_of_nodup {i : ℕ} {cs : List Store.AcceptedModel} {ρ : Reputations}
    (h : (cs.map (·.orgId)).Nodup) :
    rescore tm env files i cs ρ x = ρ x ∨ ∃ c ∈ cs, ∃ j mb, c.orgId = x ∧
      files c.modelPath = some mb ∧
      rescore tm env files i cs ρ x =
        (ρ x).map (fun p => (tm.assess p (env.judge j mb) c.numExamples).2) := by
  induction cs generalizing i ρ with
  | nil => exact Or.inl rfl
  | cons c cs ih =>
    obtain ⟨hc, hcs⟩ := List.nodup_cons.mp h
    rw [rescore]
    cases hfile : files c.modelPath with
    | none =>
      rcases ih hcs with hsame | ⟨d, hd, hrest⟩
      · exact Or.inl hsame
      · exact Or.inr ⟨d, List.mem_cons_of_mem _ hd, hrest⟩
    | some mb =>
      by_cases hx : c.orgId = x
      · subst hx
        right
        refine ⟨c, List.mem_cons_self, i, mb, rfl, hfile, ?_⟩
        dsimp only
        rw [rescore_of_notMem hc, reassess, if_pos rfl]
      · rcases ih hcs (ρ := reassess tm (env.judge i mb) c ρ) with hsame | ⟨d, hd, hrest⟩
        · exact Or.inl (hsame.trans (reassess_of_ne hx))
        · rw [reassess_of_ne hx] at hrest
          exact Or.inr ⟨d, List.mem_cons_of_mem _ hd, hrest⟩

end Once

/-! ### Calls for one round -/

section Retries

variable (app : App) (es : List Event) (roundId : ℤ)

/-- The event is a call of `aggregate_round` for the round. -/
def aggregates : Event → Bool
  | .aggregate _ r _ => decide (r = roundId)
  | _ => false

/-- It returns a response. -/
def aggregated (s : Sys) : Event → Bool
  | .aggregate user r env => (aggregateRound app user r env s.world).1.isOk
  | _ => false

def trustOf (s : Sys) (x : String) : Option ℚ := (s.world.store.reputation x).map (·.trust)

/-- The calls of a run that change the trust of an org. -/
def trustChanges (x : String) : ℕ :=
  (steps app es).countP (fun p =>
    aggregates roundId p.2 && decide (trustOf (next app p.2 p.1) x ≠ trustOf p.1 x))

/-- The calls of a run that fail. -/
def failedCalls : ℕ :=
  (steps app es).countP (fun p => aggregates roundId p.2 && !aggregated app p.1 p.2)

/-- The reputations over the calls of a run for one round. -/
structure ScoredPerCall : Prop where
  call : ∀ pre user env post settings, es = pre ++ .aggregate user roundId env :: post →
    app.trust = some settings → Due user roundId env (after app pre).world →
    (after app (pre ++ [.aggregate user roundId env])).world.store.reputation =
      rescore (app.trustManager settings) env.score (after app pre).world.files 0
        ((after app pre).world.store.getAcceptedModels roundId)
        (after app pre).world.store.reputation
  refused : ∀ pre user env post, es = pre ++ .aggregate user roundId env :: post →
    app.trust = none ∨ ¬Due user roundId env (after app pre).world →
    (after app (pre ++ [.aggregate user roundId env])).world.store.reputation =
      (after app pre).world.store.reputation
  once : ∀ pre user env post settings, es = pre ++ .aggregate user roundId env :: post →
    app.trust = some settings → OneEach (after app pre).world.store roundId → ∀ x,
    (after app (pre ++ [.aggregate user roundId env])).world.store.reputation x =
        (after app pre).world.store.reputation x ∨
      ∃ c ∈ (after app pre).world.store.getAcceptedModels roundId, ∃ j mb, c.orgId = x ∧
        (after app pre).world.files c.modelPath = some mb ∧
        (after app (pre ++ [.aggregate user roundId env])).world.store.reputation x =
          ((after app pre).world.store.reputation x).map (fun p =>
            ((app.trustManager settings).assess p (env.score.judge j mb) c.numExamples).2)
  settled : ∀ pre e mid e' post, es = pre ++ e :: (mid ++ e' :: post) →
    aggregates roundId e = true → aggregated app (after app pre) e = true →
    aggregates roundId e' = true →
    (after app (pre ++ e :: mid ++ [e'])).world.store.reputation =
      (after app (pre ++ e :: mid)).world.store.reputation
  bounded : ∀ x, trustChanges app es roundId x ≤ failedCalls app es roundId + 1

variable {app es roundId} {s : Sys} {e : Event}

lemma aggregates_eq_true (h : aggregates roundId e = true) :
    ∃ user env, e = .aggregate user roundId env := by
  cases e with
  | aggregate user r env =>
    have hr := of_decide_eq_true h
    subst hr
    exact ⟨user, env, rfl⟩
  | _ => cases h

lemma reputation_of_closed (hclosed : RoundClosed s.world.store roundId)
    (h : aggregates roundId e = true) :
    (next app e s).world.store.reputation = s.world.store.reputation := by
  obtain ⟨user, env, rfl⟩ := aggregates_eq_true h
  apply (reputation_aggregateRound app user roundId env s.world).2
  right
  intro hdue
  obtain ⟨r, hr, hrun, -⟩ := hdue.running
  exact not_running_of_closed hclosed ⟨r, hr, hrun⟩

lemma closed_of_aggregated (h : aggregates roundId e = true) (hok : aggregated app s e = true) :
    RoundClosed (next app e s).world.store roundId := by
  obtain ⟨user, env, rfl⟩ := aggregates_eq_true h
  simp only [aggregated] at hok
  cases hres : (aggregateRound app user roundId env s.world).1 with
  | error f =>
    rw [hres] at hok
    cases hok
  | ok resp =>
    obtain ⟨done⟩ := aggregated_of_ok hres
    obtain ⟨r, hr, hstatus⟩ := done.stagedFor.round
    exact ⟨r, hr, by rw [hstatus]; decide⟩

lemma countP_changes_of_closed {x : String} (hclosed : RoundClosed s.world.store roundId) :
    (visits (next app) s es).countP (fun p =>
      aggregates roundId p.2 && decide (trustOf (next app p.2 p.1) x ≠ trustOf p.1 x)) = 0 := by
  rw [List.countP_eq_zero]
  intro p hp
  obtain ⟨pre, post, -, hstate⟩ := (mem_visits _).mp hp
  have hkept := roundClosed_run app pre hclosed
  rw [← hstate] at hkept
  by_cases hagg : aggregates roundId p.2 = true
  · simp [trustOf, reputation_of_closed hkept hagg]
  · simp [hagg]

lemma countP_changes_le (x : String) :
    (visits (next app) s es).countP (fun p =>
        aggregates roundId p.2 && decide (trustOf (next app p.2 p.1) x ≠ trustOf p.1 x)) ≤
      (visits (next app) s es).countP (fun p => aggregates roundId p.2 && !aggregated app p.1 p.2) +
        1 := by
  induction es generalizing s with
  | nil => exact Nat.zero_le 1
  | cons e es ih =>
    have hrest := @ih (next app e s)
    rw [visits_cons, List.countP_cons, List.countP_cons]
    by_cases hagg : aggregates roundId e = true
    · by_cases hok : aggregated app s e = true
      · -- the round is closed from here on
        rw [countP_changes_of_closed (closed_of_aggregated hagg hok)]
        split <;> omega
      · simp only [hagg, hok, Bool.true_and, Bool.not_false, if_true]
        split <;> omega
    · simp only [hagg, Bool.false_and]
      omega

/-- Every call that is due scores each accepted contribution once, so that the contributions of a
round are scored again after each call that fails, and no more after a call that succeeds. -/
theorem scored_per_call (app : App) (es : List Event) (roundId : ℤ) :
    ScoredPerCall app es roundId where
  call := by
    intro pre user env post settings _ htrust hdue
    rw [after_concat]
    exact (reputation_aggregateRound app user roundId env (after app pre).world).1 settings htrust
      hdue
  refused := by
    intro pre user env post _ hno
    rw [after_concat]
    exact (reputation_aggregateRound app user roundId env (after app pre).world).2 hno
  once := by
    intro pre user env post settings _ htrust hone x
    obtain ⟨hscored, hrefused⟩ :=
      reputation_aggregateRound app user roundId env (after app pre).world
    rw [after_concat]
    by_cases hdue : Due user roundId env (after app pre).world
    · have hworld : (next app (.aggregate user roundId env) (after app pre)).world =
          (aggregateRound app user roundId env (after app pre).world).2 := rfl
      rw [hworld, hscored settings htrust hdue]
      exact rescore_of_nodup ((getAcceptedModels_orgs app pre roundId).nodup_iff.mpr hone)
    · exact Or.inl (congrFun (hrefused (Or.inr hdue)) x)
  settled := by
    intro pre e mid e' post _ hagg hok hagg'
    rw [after_concat]
    apply reputation_of_closed _ hagg'
    rw [after_append]
    exact roundClosed_run app mid (closed_of_aggregated hagg hok)
  bounded := fun x => countP_changes_le x

/-- Two uploads that cannot be scored, and two calls that reject both of them. -/
def refusedTwice : List Event :=
  twoUploads ++ [Sample.aggregate (fun _ => .unscored "labels"),
    Sample.aggregate (fun _ => .unscored "labels")]

/-- The second call lowers the trust for the same contribution again. -/
theorem retry_penalises_again :
    OneEach (after Sample.app refusedTwice).world.store 1 ∧
      trustChanges Sample.app refusedTwice 1 "x" = 2 := by
  have horgs : ((after Sample.app refusedTwice).world.store.acceptedIn 1).map (·.orgId) =
      ["x", "y"] := by decide +kernel
  constructor
  · rw [OneEach, horgs]
    decide
  · decide +kernel

end Retries

end FlCoordinator
