import FlCoordinator.Reputation
import FlCoordinator.Tolerance

/-!
# An aggregation in three parts

The checks, which only read; the scoring loop, which on reputations is a fold of assessments; and
the combination of the survivors, which is a function of what the loop has collected.
-/

namespace FlCoordinator

open Lib Handler

/-! ### The parts -/

section Parts

variable (app : App) (roundId : ℤ) (env : AggregateEnv)

open aggregateRound (truncate) in
/-- The checks of `aggregate_round`. -/
def dueRound (user : Option FLUser) : Api (FLUser × RoundRow × TrustSettings) := do
  let user ← flRequire user "fl_aggregate_round"
  let r ← requireRound roundId
  requireRunning roundId r
  let obsHours := r.params.observationHours
  let remaining := r.startedAt + obsHours.toRat * 3600 - env.now
  ensure (remaining ≤ 0) (.http 409
    (s!"Round {intStr roundId} still in intake/observation for {intStr (truncate remaining)}s " ++
      s!"more (window {String.ofList (Json.decimalText obsHours)}h); " ++
      "contributions are still being collected"))
  let settings ← orRaise app.trust (.http 503 "Trust manager not initialised")
  pure (user, r, settings)

/-- The failures of the checks on what was collected. -/
def noSurvivors : Failure :=
  .http 422 ("All accepted contributions were rejected by trust validation; " ++
    "round left running")

def noContributions : Failure := .http 422 "No accepted contributions to aggregate"

/-- `aggregate_round` after its scoring loop. -/
def concludeRound (user : FLUser) (r : RoundRow) (responded : ℕ) (tally : Tally) :
    Api AggregateResponse := do
  ensure (tally.survivors.isEmpty = false) noSurvivors
  let (canonical, gate) ← attempt (schemaGate app.python tally) .uncaught
  if gate.excludedSchema ≠ [] then
    let shown ← attempt (describeSchema canonical) .uncaught
    Api.log app env.schemaLoggedAt "fl.round.schema_mismatch" user.username
      s!"round_{intStr roundId}" (.obj [
        ("canonical", .str shown),
        ("excluded_orgs", Json.ofStrs gate.excludedSchema)])
  let (globalBytes, info) ← attempt (mergeXgboostModels app.python gate.weighted) .uncaught
  stageRound app user r roundId responded gate tally.trustUpdates globalBytes info env

lemma aggregateRound_parts (user : Option FLUser) :
    aggregateRound app user roundId env = (do
      let (u, r, settings) ← dueRound app roundId env user
      let accepted ← Api.query (·.getAcceptedModels roundId)
      ensure (accepted ≠ []) noContributions
      let tally ← scoreContributions app (app.trustManager settings) roundId env.score 0 accepted
      concludeRound app roundId env u r accepted.length tally) := by
  unfold aggregateRound dueRound concludeRound noSurvivors noContributions
  simp only [bind_assoc, pure_bind]

end Parts

/-! ### The checks -/

section Due

variable {app : App} {roundId : ℤ} {env : AggregateEnv} {user : Option FLUser} {w : World}

lemma flRequire_readsOnly {ρ : Type} {π : World → ρ} {permission : String} :
    ReadsOnly π (flRequire user permission) := by
  unfold flRequire
  cases user with
  | none => exact .raise _
  | some u =>
    simp only
    split
    · exact .pure u
    · exact .raise _

lemma requireRound_readsOnly : ReadsOnly (fun w => w.store.rounds) (requireRound roundId) := by
  apply ReadsOnly.bind
  · apply ReadsOnly.bind (.attempt _ _)
    intro id
    exact .read (fun rounds : AutoTable RoundRow.roundId => rounds.get? id)
  · intro found
    exact .orRaise _ _

lemma dueRound_readsOnly : ReadsOnly (fun w => w.store.rounds) (dueRound app roundId env user) := by
  unfold dueRound requireRunning
  apply ReadsOnly.bind flRequire_readsOnly
  intro u
  apply ReadsOnly.bind requireRound_readsOnly
  intro r
  apply ReadsOnly.bind (.ensure _ _)
  intro _
  apply ReadsOnly.bind (.ensure _ _)
  intro _
  apply ReadsOnly.bind (.orRaise _ _)
  intro settings
  exact .pure _

lemma dueRound_spec (app : App) (user : Option FLUser) (roundId : ℤ) (env : AggregateEnv)
    (w : World) :
    (dueRound app roundId env user).wp
      (fun res t => t = w ∧ ∀ u r settings, res = .ok (u, r, settings) →
        Due user roundId env w ∧ w.store.getRound roundId = some r ∧ app.trust = some settings) w := by
  have hfail : ∀ e : Failure, w = w ∧ ∀ u r settings,
      (Except.error e : Except Failure (FLUser × RoundRow × TrustSettings)) = .ok (u, r, settings) →
        Due user roundId env w ∧ w.store.getRound roundId = some r ∧ app.trust = some settings :=
    fun e => ⟨rfl, fun u r settings h => by cases h⟩
  unfold dueRound requireRunning
  apply wp_flRequire_bind (fun _ e => hfail e)
  intro u hu hperm
  apply wp_requireRound_fits_bind hfail
  intro r hfits hr
  apply wp_ensure_bind (fun _ => hfail _)
  intro hrun
  apply wp_ensure_bind (fun _ => hfail _)
  intro hwindow
  apply wp_orRaise_bind (fun _ => hfail _)
  intro settings hsettings
  refine ⟨rfl, fun u' r' settings' h => ?_⟩
  have hres : (Except.ok (u, r, settings) : Except Failure (FLUser × RoundRow × TrustSettings)) =
      .ok (u', r', settings') := h
  cases hres
  exact ⟨⟨⟨u, hu, hperm⟩, hfits, r, hr, hrun, by linarith⟩, hr, hsettings⟩

lemma dueRound_of_due (due : Due user roundId env w) {settings : TrustSettings}
    (h : app.trust = some settings) :
    ∃ u r, (dueRound app roundId env user w).1 = .ok (u, r, settings) := by
  obtain ⟨row, hrow, hrun, hwindow⟩ := due.running
  have hspec : (dueRound app roundId env user).wp
      (fun res _ => ∃ u r, res = .ok (u, r, settings)) w := by
    unfold dueRound requireRunning
    apply wp_flRequire_bind (fun hno => absurd due.permitted hno)
    intro u _ _
    apply wp_requireRound_ok due.fits hrow
    apply wp_ensure_bind_of hrun
    apply wp_ensure_bind_of (by linarith)
    apply wp_orRaise_bind_of h
    exact ⟨u, row, rfl⟩
  exact hspec

end Due

/-! ### The combination -/

section Combination

/-- What comes of the survivors and the results of a scoring loop: the gate's lists, and the merged
model with its data. -/
def combine (py : Python) (tally : Tally) : Except Failure (Gate × Bytes × MergeInfo) :=
  if tally.survivors.isEmpty then .error noSurvivors
  else match schemaGate py tally with
    | .error e => .error (.uncaught e)
    | .ok (canonical, gate) =>
      match if gate.excludedSchema = [] then .ok "" else describeSchema canonical with
      | .error e => .error (.uncaught e)
      | .ok _ =>
        match mergeXgboostModels py gate.weighted with
        | .error e => .error (.uncaught e)
        | .ok (bytes, info) => .ok (gate, bytes, info)

/-- The gate leaves out a survivor, which is logged before the merge. -/
def excludes (py : Python) (tally : Tally) : Bool :=
  match schemaGate py tally with
  | .error _ => false
  | .ok (_, gate) => decide (gate.excludedSchema ≠ [])

variable {app : App} {roundId : ℤ} {env : AggregateEnv}

/-- What a round that was merged stages. -/
structure Concluded (app : App) (roundId : ℤ) (env : AggregateEnv) (r : RoundRow) (responded : ℕ)
    (gate : Gate) (bytes : Bytes) (info : MergeInfo) (v : World) (resp : AggregateResponse)
    (t : World) : Prop where
  store : t.store = stagedStore app r roundId responded gate bytes info env v.store
  files : t.files = Function.update v.files (roundModelPath app.modelDir roundId) (some bytes)
  audit : v.audit.Extended t.audit
  accepted : resp.acceptedOrgs = acceptedOrgsOf gate.results
  version : resp.versionId = v.store.globalModels.seq + 1
  hash : resp.globalModelSha256 = app.host.sha256hex bytes
  merge : resp.merge = info

/-- What a failing combination leaves. -/
structure Abandoned (py : Python) (tally : Tally) (v t : World) : Prop where
  store : t.store = v.store
  files : t.files = v.files
  audit : if excludes py tally then v.audit.Extended t.audit else t.audit = v.audit

lemma concludeRound_spec (u : FLUser) (r : RoundRow) (responded : ℕ) (tally : Tally) (v : World) :
    (concludeRound app roundId env u r responded tally).wp
      (fun res t =>
        (∃ e, combine app.python tally = .error e ∧ res = .error e ∧ Abandoned app.python tally v t) ∨
        ∃ gate bytes info resp, combine app.python tally = .ok (gate, bytes, info) ∧ res = .ok resp ∧
          Concluded app roundId env r responded gate bytes info v resp t) v := by
  unfold concludeRound
  by_cases hempty : tally.survivors.isEmpty = true
  · have hnone : excludes app.python tally = false := by
      simp only [excludes, schemaGate, List.isEmpty_iff.mp hempty, sortSurvivors,
        List.insertionSort_nil]
    apply wp_ensure_bind
    · intro _
      refine Or.inl ⟨noSurvivors, by rw [combine, if_pos hempty], rfl, rfl, rfl, ?_⟩
      rw [hnone]
      rfl
    · intro hsome
      rw [hempty] at hsome
      cases hsome
  apply wp_ensure_bind_of (by simpa using hempty)
  cases hgate : schemaGate app.python tally with
  | error e =>
    refine Or.inl ⟨.uncaught e, ?_, rfl, rfl, rfl, ?_⟩
    · rw [combine, if_neg hempty, hgate]
    · simp only [excludes, hgate]
      rfl
  | ok cg =>
    obtain ⟨canonical, gate⟩ := cg
    apply wp_attempt_bind_of rfl
    -- the audit entry for excluded schemas is the only difference between the two branches
    have hmerge : ∀ v' : World, v'.store = v.store → v'.files = v.files →
        (if excludes app.python tally then v.audit.Extended v'.audit else v'.audit = v.audit) →
        (∀ e, mergeXgboostModels app.python gate.weighted = .error e →
          combine app.python tally = .error (.uncaught e)) →
        (∀ bytes info, mergeXgboostModels app.python gate.weighted = .ok (bytes, info) →
          combine app.python tally = .ok (gate, bytes, info)) →
        (attempt (mergeXgboostModels app.python gate.weighted) Failure.uncaught >>= fun p =>
          stageRound app u r roundId responded gate tally.trustUpdates p.1 p.2 env).wp
        (fun res t =>
          (∃ e, combine app.python tally = .error e ∧ res = .error e ∧
            Abandoned app.python tally v t) ∨
          ∃ gate bytes info resp, combine app.python tally = .ok (gate, bytes, info) ∧ res = .ok resp ∧
            Concluded app roundId env r responded gate bytes info v resp t) v' := by
      intro v' hstore hfiles haudit herr hok
      apply wp_attempt_bind (fun e he => Or.inl ⟨_, herr e he, rfl, hstore, hfiles, haudit⟩)
      intro out hout
      obtain ⟨bytes, info⟩ := out
      unfold stageRound
      refine wp_writeFile_bind (wp_insert_bind (wp_execute_bind (wp_log_bind ?_)))
      refine Or.inr ⟨gate, bytes, info, _, hok bytes info hout, rfl, ?_, ?_, ?_, rfl, ?_, rfl, rfl⟩
      · rw [← hstore]
        rfl
      · rw [← hfiles]
        rfl
      · split at haudit
        · exact haudit.trans (AuditTrail.extended_log ..)
        · rw [← haudit]
          exact AuditTrail.extended_log ..
      · rw [← hstore]
        rfl
    by_cases hex : gate.excludedSchema = []
    · have hnone : excludes app.python tally = false := by simp [excludes, hgate, hex]
      simp only [hex, ne_eq, not_true_eq_false, if_false]
      apply hmerge v rfl rfl
      · rw [hnone]
        rfl
      · intro e he
        simp only [combine, if_neg hempty, hgate, if_pos hex, he]
      · intro bytes info hout
        simp only [combine, if_neg hempty, hgate, if_pos hex, hout]
    · simp only [ne_eq, hex, not_false_eq_true, if_true]
      -- the gate has shown the canonical schema before
      obtain ⟨shown, hshown⟩ := describeSchema_isOk.mpr
        ((schemaGate_eq_ok hgate).2.2.2.resolve_left hex)
      apply wp_attempt_bind_of hshown
      apply wp_log_bind
      refine hmerge (v.logAudit app env.schemaLoggedAt "fl.round.schema_mismatch" u.username
        s!"round_{intStr roundId}" (.obj [("canonical", .str shown),
          ("excluded_orgs", Json.ofStrs gate.excludedSchema)])) rfl rfl ?_ ?_ ?_
      · simp only [excludes, hgate, ne_eq, hex, not_false_eq_true, decide_true, if_true]
        exact AuditTrail.extended_log ..
      · intro e he
        simp only [combine, if_neg hempty, hgate, if_neg hex, hshown, he]
      · intro bytes info hout
        simp only [combine, if_neg hempty, hgate, if_neg hex, hshown, hout]

end Combination

/-! ### The scoring loop on reputations -/

section Loop

/-- The reputations of all orgs. -/
abbrev Reputations := String → Option Reputation

variable (tm : TrustManager) (env : ScoreEnv) (files : String → Option Bytes)

/-- The reputations after the assessment of one contribution. -/
def reassess (judgement : Judgement) (c : Store.AcceptedModel) (ρ : Reputations) : Reputations :=
  fun y => if c.orgId = y then (ρ y).map (fun p => (tm.assess p judgement c.numExamples).2)
    else ρ y

/-- The reputations after the contributions from position `i` on were scored, each one once. -/
def rescore : ℕ → List Store.AcceptedModel → Reputations → Reputations
  | _, [], ρ => ρ
  | i, c :: cs, ρ =>
    match files c.modelPath with
    | none => rescore (i + 1) cs ρ
    | some mb => rescore (i + 1) cs (reassess tm (env.judge i mb) c ρ)

/-- What the loop collects. -/
def tallyUp (app : App) (roundId : ℤ) : ℕ → List Store.AcceptedModel → Reputations → Tally
  | _, [], _ => ⟨[], [], []⟩
  | i, c :: cs, ρ =>
    match files c.modelPath with
    | none =>
      let tally := tallyUp app roundId (i + 1) cs ρ
      { tally with results := missingResult c :: tally.results }
    | some mb =>
      let ev := (tm.assess ((ρ c.orgId).getD .unknown) (env.judge i mb) c.numExamples).1
      let tally := tallyUp app roundId (i + 1) cs (reassess tm (env.judge i mb) c ρ)
      { survivors := if ev.accepted then ⟨c.orgId, mb, ev.weight⟩ :: tally.survivors
          else tally.survivors
        results := scoredResult c ev :: tally.results
        trustUpdates := trustUpdatesOf app roundId c ev (env.issuedAt i) ++ tally.trustUpdates }

variable {tm env files} {app : App} {roundId : ℤ}

lemma reassess_of_ne {judgement : Judgement} {c : Store.AcceptedModel} {ρ : Reputations}
    {x : String}
    (h : c.orgId ≠ x) : reassess tm judgement c ρ x = ρ x := by
  rw [reassess, if_neg h]

lemma rescore_of_notMem {i : ℕ} {cs : List Store.AcceptedModel} {ρ : Reputations} {x : String}
    (h : x ∉ cs.map (·.orgId)) : rescore tm env files i cs ρ x = ρ x := by
  induction cs generalizing i ρ with
  | nil => rfl
  | cons c cs ih =>
    rw [List.map_cons, List.mem_cons, not_or] at h
    rw [rescore]
    cases files c.modelPath with
    | none => exact ih h.2
    | some mb => exact (ih h.2).trans (reassess_of_ne (Ne.symm h.1))

/-- A run of the scoring loop is the loop on the reputations that it finds. -/
theorem Scored.onReputations {i : ℕ} {cs : List Store.AcceptedModel} {w t : World} {tally : Tally}
    (h : Scored app tm roundId env i cs w tally t) :
    t.store.reputation = rescore tm env w.files i cs w.store.reputation ∧
      tally = tallyUp tm env w.files app roundId i cs w.store.reputation := by
  induction h with
  | nil i w => exact ⟨rfl, rfl⟩
  | missing i c cs w t tally hfile tail ih =>
    obtain ⟨hrep, htally⟩ := ih
    rw [rescore, tallyUp, hfile]
    exact ⟨hrep, by rw [htally]⟩
  | scored i c cs w t tally mb hfile ev s hev tail ih =>
    obtain ⟨hreport, hsettle⟩ := TrustManager.evaluate_assess tm w.store c.orgId
      (env.judge i mb) c.numExamples (env.scoredAt i)
    rw [hev] at hreport hsettle
    have hnext : (w.setStore s).store.reputation =
        reassess tm (env.judge i mb) c w.store.reputation := funext hsettle
    rw [hnext] at ih
    obtain ⟨hrep, htally⟩ := ih
    rw [rescore, tallyUp, hfile]
    refine ⟨hrep, ?_⟩
    dsimp only at hreport ⊢
    rw [htally, ← hreport]
    rfl

end Loop

/-! ### Whole calls -/

section Calls

variable {app : App} {user : Option FLUser} {roundId : ℤ} {env : AggregateEnv} {w : World}

/-- How a call of `aggregate_round` can go. -/
inductive AggregateRun (app : App) (user : Option FLUser) (roundId : ℤ) (env : AggregateEnv)
    (w : World) : Except Failure AggregateResponse → World → Prop
  | refused (e : Failure) (check : (dueRound app roundId env user w).1 = .error e) :
      AggregateRun app user roundId env w (.error e) w
  | empty (u : FLUser) (r : RoundRow) (settings : TrustSettings)
      (check : (dueRound app roundId env user w).1 = .ok (u, r, settings))
      (none : w.store.getAcceptedModels roundId = []) :
      AggregateRun app user roundId env w (.error noContributions) w
  | failed (u : FLUser) (r : RoundRow) (settings : TrustSettings)
      (check : (dueRound app roundId env user w).1 = .ok (u, r, settings))
      (some : w.store.getAcceptedModels roundId ≠ []) (tally : Tally) (v t : World)
      (scored : Scored app (app.trustManager settings) roundId env.score 0
        (w.store.getAcceptedModels roundId) w tally v)
      (e : Failure) (combined : combine app.python tally = .error e)
      (left : Abandoned app.python tally v t) :
      AggregateRun app user roundId env w (.error e) t
  | staged (u : FLUser) (r : RoundRow) (settings : TrustSettings)
      (check : (dueRound app roundId env user w).1 = .ok (u, r, settings))
      (some : w.store.getAcceptedModels roundId ≠ []) (tally : Tally) (v t : World)
      (scored : Scored app (app.trustManager settings) roundId env.score 0
        (w.store.getAcceptedModels roundId) w tally v)
      (gate : Gate) (bytes : Bytes) (info : MergeInfo)
      (combined : combine app.python tally = .ok (gate, bytes, info)) (resp : AggregateResponse)
      (done : Concluded app roundId env r (w.store.getAcceptedModels roundId).length gate bytes info
        v resp t) :
      AggregateRun app user roundId env w (.ok resp) t

theorem aggregateRound_run (app : App) (user : Option FLUser) (roundId : ℤ) (env : AggregateEnv)
    (w : World) :
    AggregateRun app user roundId env w (aggregateRound app user roundId env w).1
      (aggregateRound app user roundId env w).2 := by
  have hspec : (aggregateRound app user roundId env).wp
      (fun res t => AggregateRun app user roundId env w res t) w := by
    rw [aggregateRound_parts, wp_bind, wp_def, dueRound_readsOnly.state w]
    cases hcheck : (dueRound app roundId env user w).1 with
    | error e => exact .refused e hcheck
    | ok p =>
      obtain ⟨u, r, settings⟩ := p
      apply wp_query_bind
      apply wp_ensure_bind
      · intro hnone
        exact .empty u r settings hcheck (not_not.mp hnone)
      intro hsome
      apply wp_call_bind (scoreContributions_spec 0 _ w)
      · rintro e v ⟨tally, h, -⟩
        cases h
      rintro tally v ⟨tally', h, hscored⟩
      cases h
      apply wp_mono (concludeRound_spec u r _ tally v)
      rintro res t (⟨e, hcombine, rfl, hleft⟩ | ⟨gate, bytes, info, resp, hcombine, rfl, hdone⟩)
      · exact .failed u r settings hcheck hsome tally v t hscored e hcombine hleft
      · exact .staged u r settings hcheck hsome tally v t hscored gate bytes info hcombine resp hdone
  exact hspec

namespace AggregateRun

variable {res : Except Failure AggregateResponse} {t : World}

lemma of_refused (h : AggregateRun app user roundId env w res t) {e : Failure}
    (hcheck : (dueRound app roundId env user w).1 = .error e) : res = .error e ∧ t = w := by
  cases h with
  | refused e' check =>
    rw [check] at hcheck
    cases hcheck
    exact ⟨rfl, rfl⟩
  | empty u r settings check => rw [check] at hcheck; cases hcheck
  | failed u r settings check => rw [check] at hcheck; cases hcheck
  | staged u r settings check => rw [check] at hcheck; cases hcheck

lemma of_empty (h : AggregateRun app user roundId env w res t)
    {p : FLUser × RoundRow × TrustSettings}
    (hcheck : (dueRound app roundId env user w).1 = .ok p)
    (hnone : w.store.getAcceptedModels roundId = []) :
    res = .error noContributions ∧ t = w := by
  cases h with
  | refused e check => rw [check] at hcheck; cases hcheck
  | empty => exact ⟨rfl, rfl⟩
  | failed u r settings check some => exact absurd hnone some
  | staged u r settings check some => exact absurd hnone some

lemma of_scored (h : AggregateRun app user roundId env w res t) {u : FLUser} {r : RoundRow}
    {settings : TrustSettings} (hcheck : (dueRound app roundId env user w).1 = .ok (u, r, settings))
    (hsome : w.store.getAcceptedModels roundId ≠ []) :
    ∃ tally v, Scored app (app.trustManager settings) roundId env.score 0
        (w.store.getAcceptedModels roundId) w tally v ∧
      ((∃ e, combine app.python tally = .error e ∧ res = .error e ∧ Abandoned app.python tally v t) ∨
        ∃ gate bytes info resp, combine app.python tally = .ok (gate, bytes, info) ∧ res = .ok resp ∧
          Concluded app roundId env r (w.store.getAcceptedModels roundId).length gate bytes info v
            resp t) := by
  cases h with
  | refused e check => rw [check] at hcheck; cases hcheck
  | empty u r settings check none => exact absurd none hsome
  | failed u r settings check some tally v t scored e combined left =>
    rw [check] at hcheck
    cases hcheck
    exact ⟨tally, v, scored, Or.inl ⟨e, combined, rfl, left⟩⟩
  | staged u r settings check some tally v t scored gate bytes info combined resp done =>
    rw [check] at hcheck
    cases hcheck
    exact ⟨tally, v, scored, Or.inr ⟨gate, bytes, info, resp, combined, rfl, done⟩⟩

end AggregateRun

lemma due_of_dueRound {u : FLUser} {r : RoundRow} {settings : TrustSettings}
    (h : (dueRound app roundId env user w).1 = .ok (u, r, settings)) :
    Due user roundId env w ∧ w.store.getRound roundId = some r ∧ app.trust = some settings :=
  (dueRound_spec app user roundId env w).2 u r settings h

lemma reputation_stagedStore (app : App) (r : RoundRow) (roundId : ℤ) (responded : ℕ) (gate : Gate)
    (bytes : Bytes) (info : MergeInfo) (env : AggregateEnv) (s : Store) :
    (stagedStore app r roundId responded gate bytes info env s).reputation = s.reputation := by
  obtain ⟨rounds, versions, hstage, -⟩ := stagedStore_frame app r roundId responded gate bytes info
    env s
  rw [hstage]
  rfl

/-- A call that is due scores each accepted contribution once; any other call changes no
reputation. -/
theorem reputation_aggregateRound (app : App) (user : Option FLUser) (roundId : ℤ)
    (env : AggregateEnv) (w : World) :
    (∀ settings, app.trust = some settings → Due user roundId env w →
      (aggregateRound app user roundId env w).2.store.reputation =
        rescore (app.trustManager settings) env.score w.files 0
          (w.store.getAcceptedModels roundId) w.store.reputation) ∧
    ((app.trust = none ∨ ¬Due user roundId env w) →
      (aggregateRound app user roundId env w).2.store.reputation = w.store.reputation) := by
  have hrun := aggregateRound_run app user roundId env w
  generalize (aggregateRound app user roundId env w).1 = res at hrun
  generalize (aggregateRound app user roundId env w).2 = t at hrun ⊢
  have hpassed : ∀ {u r settings}, (dueRound app roundId env user w).1 = .ok (u, r, settings) →
      t.store.reputation = rescore (app.trustManager settings) env.score w.files 0
        (w.store.getAcceptedModels roundId) w.store.reputation →
      (∀ settings, app.trust = some settings → Due user roundId env w →
        t.store.reputation = rescore (app.trustManager settings) env.score w.files 0
          (w.store.getAcceptedModels roundId) w.store.reputation) ∧
      ((app.trust = none ∨ ¬Due user roundId env w) →
        t.store.reputation = w.store.reputation) := by
    intro u r settings hcheck hrep
    obtain ⟨hdue, -, htrust⟩ := due_of_dueRound hcheck
    constructor
    · intro settings' htrust' _
      rw [htrust] at htrust'
      cases htrust'
      exact hrep
    · rintro (hnone | hno)
      · rw [htrust] at hnone
        cases hnone
      · exact absurd hdue hno
  cases hrun with
  | refused e check =>
    refine ⟨fun settings htrust hdue => ?_, fun _ => rfl⟩
    obtain ⟨u, r, hok⟩ := dueRound_of_due hdue htrust
    rw [check] at hok
    cases hok
  | empty u r settings check none =>
    apply hpassed check
    rw [none]
    rfl
  | failed u r settings check some tally v t scored e combined left =>
    apply hpassed check
    rw [left.store]
    exact scored.onReputations.1
  | staged u r settings check some tally v t scored gate bytes info combined resp done =>
    apply hpassed check
    rw [done.store, reputation_stagedStore]
    exact scored.onReputations.1

end Calls

end FlCoordinator
