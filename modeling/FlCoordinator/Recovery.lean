import FlCoordinator.Tolerance
import FlCoordinator.Versions

/-!
# Crashes between writes

`aggregate_round` and `publish_round_model` commit a file and two tables one after the other.
Here each is a preparation followed by a list of writes, a crash keeps a prefix of the list, and
the request is repeated on what the disk then holds.
-/

namespace FlCoordinator

open Lib Handler

/-- Commit the writes one after the other. -/
def commit (ws : List (World → World)) (w : World) : World := Lib.run (fun write t => write t) w ws

/-! ### Aggregating -/

/-- What `aggregate_round` has in hand after the merge. -/
structure Merged where
  user : FLUser
  row : RoundRow
  responded : ℕ
  gate : Gate
  trustUpdates : List TrustUpdate
  globalBytes : Bytes
  info : MergeInfo

open aggregateRound (truncate) in
/-- `aggregate_round` up to the merge. -/
def mergeRound (app : App) (user : Option FLUser) (roundId : ℤ) (env : AggregateEnv) :
    Api Merged := do
  let user ← flRequire user "fl_aggregate_round"
  let r ← requireRound roundId
  requireRunning roundId r
  let obsHours := r.params.observationHours
  let remaining := r.startedAt + obsHours.toRat * 3600 - env.now
  ensure (remaining ≤ 0) (.http 409
    (s!"Round {intStr roundId} still in intake/observation for {intStr (truncate remaining)}s " ++
      s!"more (window {String.ofList (Json.decimalText obsHours)}h); " ++
      "contributions are still being collected"))
  let settings ← orRaise app.trust (.http 503 "Trust manager not initialised")
  let accepted ← Api.query (·.getAcceptedModels roundId)
  ensure (accepted ≠ []) (.http 422 "No accepted contributions to aggregate")
  let tally ← scoreContributions app (app.trustManager settings) roundId env.score 0 accepted
  ensure (tally.survivors.isEmpty = false) (.http 422
    ("All accepted contributions were rejected by trust validation; " ++ "round left running"))
  let (canonical, gate) ← attempt (schemaGate app.python tally) .uncaught
  if gate.excludedSchema ≠ [] then
    let shown ← attempt (describeSchema canonical) .uncaught
    Api.log app env.schemaLoggedAt "fl.round.schema_mismatch" user.username
      s!"round_{intStr roundId}" (.obj [
        ("canonical", .str shown),
        ("excluded_orgs", Json.ofStrs gate.excludedSchema)])
  let (globalBytes, info) ← attempt (mergeXgboostModels app.python gate.weighted) .uncaught
  pure
    { user
      row := r
      responded := accepted.length
      gate
      trustUpdates := tally.trustUpdates
      globalBytes
      info }

lemma aggregateRound_eq (app : App) (user : Option FLUser) (roundId : ℤ) (env : AggregateEnv) :
    aggregateRound app user roundId env = (do
      let m ← mergeRound app user roundId env
      stageRound app m.user m.row roundId m.responded m.gate m.trustUpdates m.globalBytes m.info
        env) := by
  unfold aggregateRound mergeRound
  simp only [bind_assoc]
  congr! with u r _ _ accepted _ _ tally _ _
  split
  · simp only [bind_assoc, pure_bind]
  · simp only [bind_assoc, pure_bind]

/-- The writes of `aggregate_round`: the file, the version, the round. -/
def stageWrites (app : App) (roundId : ℤ) (m : Merged) (env : AggregateEnv) :
    List (World → World) :=
  let path := roundModelPath app.modelDir roundId
  let globalHash := app.host.sha256hex m.globalBytes
  let survivors := acceptedOrgsOf m.gate.results
  let stagedUntil := env.stagedNow + m.row.params.observationHours.toRat * 3600
  let metrics : EvalMetrics := { merge := m.info, contributors := m.gate.results }
  [fun w => w.setFile path m.globalBytes,
   fun w => w.setStore (w.store.stageGlobalModel roundId globalHash path stagedUntil (some metrics)
    env.createdAt).2,
   fun w => w.setStore (w.store.completeRound roundId .aggregated m.responded survivors.length
    (m.responded - survivors.length) (some globalHash) (some metrics) env.createdAt)]

lemma stageRound_commits (app : App) (roundId : ℤ) (m : Merged) (env : AggregateEnv) (w : World) :
    ∃ resp details, stageRound app m.user m.row roundId m.responded m.gate m.trustUpdates
        m.globalBytes m.info env w =
      (.ok resp, (commit (stageWrites app roundId m env) w).logAudit app env.loggedAt
        "fl.round.aggregated" m.user.username s!"round_{intStr roundId}" details) :=
  ⟨_, _, rfl⟩

/-- A merge that may be staged: the aggregation was due, and only trust has changed. -/
structure MergedFrom (user : Option FLUser) (roundId : ℤ) (env : AggregateEnv) (w : World)
    (m : Merged) (t : World) : Prop where
  due : Due user roundId env w
  store : TrustOnly w.store t.store
  files : t.files = w.files

lemma mergeRound_spec (app : App) (user : Option FLUser) (roundId : ℤ) (env : AggregateEnv)
    (w : World) :
    (mergeRound app user roundId env).wp
      (fun r t => ∀ m, r = .ok m → MergedFrom user roundId env w m t) w := by
  have hfail : ∀ (e : Failure) (t : World), ∀ m, (Except.error e : Except Failure Merged) = .ok m →
      MergedFrom user roundId env w m t := fun e t m h => by cases h
  unfold mergeRound requireRunning
  apply wp_flRequire_bind (fun _ e => hfail e w)
  intro u hu hperm
  apply wp_requireRound_fits_bind (fun e => hfail e w)
  intro r hfits hr
  apply wp_ensure_bind (fun _ => hfail _ w)
  intro hrun
  apply wp_ensure_bind (fun _ => hfail _ w)
  intro hwindow
  apply wp_orRaise_bind (fun _ => hfail _ w)
  intro settings _
  refine wp_query_bind (wp_ensure_bind (fun _ => hfail _ w) fun _ => ?_)
  apply wp_call_bind (scoreContributions_spec 0 _ w) (fun e t _ => hfail e t)
  intro tally t h
  obtain ⟨_, -, hscored⟩ := h
  apply wp_ensure_bind (fun _ => hfail _ t)
  intro _
  apply wp_attempt_bind (fun _ _ => hfail _ t)
  intro cg _
  have hdone : ∀ v : World, v.store = t.store → v.files = t.files → ∀ m,
      MergedFrom user roundId env w m v := by
    intro v hs hf m
    refine ⟨⟨⟨u, hu, hperm⟩, hfits, r, hr, hrun, by linarith⟩, ?_, hf.trans hscored.frame.2.1⟩
    rw [hs]
    exact hscored.frame.1
  by_cases hex : cg.2.excludedSchema ≠ []
  · simp only [if_pos hex]
    refine wp_attempt_bind (fun _ _ => hfail _ t) fun shown _ => wp_log_bind ?_
    refine wp_attempt_bind (fun _ _ => hfail _ _) fun out _ m _ => ?_
    exact hdone (t.logAudit _ _ _ _ _ _) rfl rfl m
  · simp only [if_neg hex]
    exact wp_attempt_bind (fun _ _ => hfail _ t) fun out _ m _ => hdone _ rfl rfl m

/-! ### Publishing -/

open aggregateRound (truncate) in
/-- `publish_round_model` up to the promotion. -/
def findStaged (user : Option FLUser) (roundId : ℤ) (env : PublishEnv) :
    Api (FLUser × GlobalModelRow) := do
  let user ← flRequire user "fl_aggregate_round"
  let _ ← requireRound roundId
  let found ← Api.query (·.getStagedModelForRound roundId)
  let staged ← orRaise found
    (.http 409 s!"Round {intStr roundId} has no staged model — aggregate first")
  let remaining := staged.stagedUntil - env.now
  ensure (remaining ≤ 0) (.http 409
    (s!"Staged model v{intStr staged.versionId} still under observation for " ++
      s!"{intStr (truncate remaining)}s more; " ++
      "publish refused until the soak window elapses"))
  pure (user, staged)

/-- `publish_round_model` from the promotion on. -/
def promoteStaged (app : App) (roundId : ℤ) (env : PublishEnv) (user : FLUser)
    (staged : GlobalModelRow) : Api PublishResponse := do
  let promoted ← Api.insert
    (fun s => s.promoteGlobalModel staged.versionId user.username env.promotedAt)
  Api.execute (·.setRoundStatus roundId .completed env.completedAt)
  let gm ← orRaise promoted (.uncaught .typeError)
  Api.log app env.loggedAt "fl.global_model.publish" user.username s!"round_{intStr roundId}"
    (.obj [
      ("version_id", .int gm.versionId),
      ("model_sha256", .str (hashPrefix gm.modelHash))])
  pure { versionId := gm.versionId, roundId, modelSha256 := gm.modelHash }

lemma publishRoundModel_eq (app : App) (user : Option FLUser) (roundId : ℤ) (env : PublishEnv) :
    publishRoundModel app user roundId env = (do
      let (u, staged) ← findStaged user roundId env
      promoteStaged app roundId env u staged) := by
  unfold publishRoundModel findStaged promoteStaged
  simp only [bind_assoc, pure_bind]

/-- The writes of `publish_round_model`: the versions, the round. -/
def publishWrites (roundId : ℤ) (env : PublishEnv) (user : FLUser) (staged : GlobalModelRow) :
    List (World → World) :=
  [fun w => w.setStore
    (w.store.promoteGlobalModel staged.versionId user.username env.promotedAt).2,
   fun w => w.setStore (w.store.setRoundStatus roundId .completed env.completedAt)]

lemma promoteStaged_commits (app : App) (roundId : ℤ) (env : PublishEnv) (u : FLUser)
    (staged : GlobalModelRow) (w : World) :
    (promoteStaged app roundId env u staged).wp
      (fun _ t => t.store = (commit (publishWrites roundId env u staged) w).store ∧
        t.files = (commit (publishWrites roundId env u staged) w).files) w := by
  unfold promoteStaged
  refine wp_insert_bind (wp_execute_bind ?_)
  exact wp_orRaise_bind (fun _ => ⟨rfl, rfl⟩) fun gm _ => wp_log_bind ⟨rfl, rfl⟩

lemma findStaged_spec (user : Option FLUser) (roundId : ℤ) (env : PublishEnv) (w : World) :
    (findStaged user roundId env).wp
      (fun r t => t = w ∧ ∀ p, r = .ok p → w.store.getStagedModelForRound roundId = some p.2) w := by
  have hfail : ∀ e : Failure, w = w ∧
      ∀ p, (Except.error e : Except Failure (FLUser × GlobalModelRow)) = .ok p →
        w.store.getStagedModelForRound roundId = some p.2 := fun e => ⟨rfl, fun p h => by cases h⟩
  unfold findStaged
  apply wp_flRequire_bind (fun _ e => hfail e)
  intro u _ _
  refine wp_requireRound_bind hfail fun r _ => wp_query_bind ?_
  refine wp_orRaise_bind (fun _ => hfail _) fun staged hstaged => ?_
  refine wp_ensure_bind (fun _ => hfail _) fun _ => ⟨rfl, fun p h => ?_⟩
  obtain rfl := Except.ok.inj h
  exact hstaged

/-! ### Crashes -/

/-- A request that moves a model through its life, with what it draws from clocks and XGBoost. -/
inductive ModelRequest
  | aggregate (env : AggregateEnv)
  | publish (env : PublishEnv)

namespace ModelRequest

section

variable (app : App) (user : Option FLUser) (roundId : ℤ)

/-- The writes that the request is going to commit. -/
def writes : ModelRequest → Api (List (World → World))
  | .aggregate env => do
    let m ← mergeRound app user roundId env
    pure (stageWrites app roundId m env)
  | .publish env => do
    let p ← findStaged user roundId env
    pure (publishWrites roundId env p.1 p.2)

/-- Serve the request: whether it succeeds, and the world it leaves. -/
def serve (w : World) : ModelRequest → Bool × World
  | .aggregate env =>
    let served := aggregateRound app user roundId env w
    (served.1.isOk, served.2)
  | .publish env =>
    let served := publishRoundModel app user roundId env w
    (served.1.isOk, served.2)

end

/-- The same request at a later time. -/
def Repeats : ModelRequest → ModelRequest → Prop
  | .aggregate env', .aggregate env => env.now ≤ env'.now
  | .publish env', .publish env => env.now ≤ env'.now
  | _, _ => False

end ModelRequest

/-- The round has the status, and one version in its state, with the hash of its file. -/
structure HasVersion (app : App) (roundId : ℤ) (status : RoundStatus) (state : ModelStatus)
    (w : World) : Prop where
  round : ∃ r, w.store.getRound roundId = some r ∧ r.status = status
  version : ∃ g bytes, w.store.versionsOf roundId = [g] ∧ g.status = state ∧
    w.files g.modelPath = some bytes ∧ g.modelHash = app.host.sha256hex bytes

/-- What an uninterrupted request of this kind leaves. -/
def ModelRequest.Done (app : App) (roundId : ℤ) (w : World) : ModelRequest → Prop
  | .aggregate _ => HasVersion app roundId .aggregated .staged w
  | .publish _ => HasVersion app roundId .completed .active w

/-- Repeating the request in the world of a crash succeeds, or finds the work done, and leaves
what an uninterrupted request does. -/
structure Recovers (app : App) (user : Option FLUser) (roundId : ℤ) (again : ModelRequest)
    (w : World) : Prop where
  answered : (again.serve app user roundId w).1 = true ∨ again.Done app roundId w
  done : again.Done app roundId (again.serve app user roundId w).2

section Crash

variable {app : App} {user : Option FLUser} {roundId : ℤ} {w : World}

/-- The writes of a request are all that it commits to the store and the files. -/
theorem serve_commits {req : ModelRequest} {ws : List (World → World)} {t : World}
    (h : req.writes app user roundId w = (.ok ws, t)) :
    (req.serve app user roundId w).2.store = (commit ws t).store ∧
      (req.serve app user roundId w).2.files = (commit ws t).files := by
  cases req with
  | aggregate env =>
    obtain ⟨m, hm, rfl⟩ := bind_pure_eq_ok h
    have hspec : (aggregateRound app user roundId env).wp (fun _ u =>
        u.store = (commit (stageWrites app roundId m env) t).store ∧
        u.files = (commit (stageWrites app roundId m env) t).files) w := by
      obtain ⟨resp, details, hstage⟩ := stageRound_commits app roundId m env t
      rw [aggregateRound_eq, wp_bind, wp_def, hm]
      simp only [wp_def, hstage]
      exact ⟨rfl, rfl⟩
    exact hspec
  | publish env =>
    obtain ⟨⟨u, staged⟩, hp, rfl⟩ := bind_pure_eq_ok h
    have hspec : (publishRoundModel app user roundId env).wp (fun _ v =>
        v.store = (commit (publishWrites roundId env u staged) t).store ∧
        v.files = (commit (publishWrites roundId env u staged) t).files) w := by
      rw [publishRoundModel_eq, wp_bind, wp_def, hp]
      exact promoteStaged_commits app roundId env u staged t
    exact hspec

lemma versionsOf_congr {s s' : Store} (h : s'.globalModels = s.globalModels) (k : ℤ) :
    s'.versionsOf k = s.versionsOf k := by
  rw [Store.versionsOf, h]
  rfl

lemma versionsOf_stageGlobalModel (s : Store) (k : ℤ) (modelHash modelPath : String)
    (stagedUntil : ℚ) (metrics : Option EvalMetrics) (now : ℚ) :
    ∃ g, g.status = .staged ∧ g.modelHash = modelHash ∧ g.modelPath = modelPath ∧
      (s.stageGlobalModel k modelHash modelPath stagedUntil metrics now).2.versionsOf k =
        s.versionsOf k ++ [g] := by
  refine ⟨⟨s.globalModels.seq + 1, k, now, stagedUntil, .staged, modelHash, modelPath, none, none,
    metrics⟩, rfl, rfl, rfl, ?_⟩
  refine (List.filter_append _ _).trans (congrArg (s.versionsOf k ++ ·) ?_)
  exact List.filter_cons_of_pos (by simp)

lemma Aggregated.versionsOf {env : AggregateEnv} {resp : AggregateResponse} {t : World}
    (h : Aggregated app user roundId env w resp t) :
    ∃ g, g.status = .staged ∧ t.files g.modelPath = some h.bytes ∧
      g.modelHash = app.host.sha256hex h.bytes ∧
      t.store.versionsOf roundId = w.store.versionsOf roundId ++ [g] := by
  obtain ⟨g, hst, hhash, hpath, happend⟩ := versionsOf_stageGlobalModel h.scoredWorld.store roundId
    (app.host.sha256hex h.bytes) (roundModelPath app.modelDir roundId)
    (env.stagedNow + h.row.params.observationHours.toRat * 3600)
    (some { merge := h.info, contributors := h.gate.results }) env.createdAt
  refine ⟨g, hst, ?_, hhash, ?_⟩
  · rw [h.files, hpath, Function.update_self]
  · rw [← versionsOf_congr h.scored.frame.1.globalModels, ← happend]
    refine versionsOf_congr ?_ roundId
    rw [h.store]
    rfl

lemma not_done_of_due {env : AggregateEnv} (due : Due user roundId env w) :
    ¬(ModelRequest.aggregate env).Done app roundId w := by
  rintro ⟨⟨r, hr, hst⟩, -⟩
  obtain ⟨r', hr', hrun, -⟩ := due.running
  rw [hr] at hr'
  obtain rfl := Option.some.inj hr'
  rw [hrun] at hst
  cases hst

lemma recovers_of_unstaged {env : AggregateEnv} (due : Due user roundId env w)
    (hnone : w.store.versionsOf roundId = []) :
    Recovers app user roundId (.aggregate env) w ↔
      ∃ canonical, Combinable app.python canonical (trustedIn app roundId env w) := by
  have houtcome := aggregateRound_outcome app due
  rw [wp_def] at houtcome
  rcases houtcome with ⟨⟨status, detail, herr⟩, hempty⟩ | ⟨⟨e, herr⟩, -, hcrash⟩ | ⟨resp, hok⟩
  · constructor
    · rintro ⟨hserved | hdone, -⟩
      · rw [ModelRequest.serve, herr] at hserved
        cases hserved
      · exact absurd hdone (not_done_of_due due)
    · rintro ⟨canonical, hc⟩
      obtain ⟨v, rest, hsort, -⟩ := hc.heaviest
      rw [hempty] at hsort
      cases hsort
  · constructor
    · rintro ⟨hserved | hdone, -⟩
      · rw [ModelRequest.serve, herr] at hserved
        cases hserved
      · exact absurd hdone (not_done_of_due due)
    · rintro ⟨canonical, hc⟩
      exact absurd hc (hcrash canonical)
  · obtain ⟨done⟩ := aggregated_of_ok hok
    obtain ⟨g, hst, hfile, hhash, happend⟩ := done.versionsOf
    refine ⟨fun _ => ⟨done.canonical, done.combinable⟩, fun _ => ⟨Or.inl ?_, ?_, ?_⟩⟩
    · rw [ModelRequest.serve, hok]
      rfl
    · exact ⟨_, done.getRound, rfl⟩
    · exact ⟨g, done.bytes, by rw [ModelRequest.serve, happend, hnone]; rfl, hst, hfile, hhash⟩

/-- A round that is running with a version already staged cannot be aggregated once. -/
lemma not_recovers_of_staged {env : AggregateEnv} (due : Due user roundId env w)
    {vs : List GlobalModelRow} {g : GlobalModelRow} (hsome : w.store.versionsOf roundId = vs ++ [g]) :
    ¬Recovers app user roundId (.aggregate env) w := by
  rintro ⟨hserved | hdone, hafter⟩
  · cases hres : (aggregateRound app user roundId env w).1 with
    | error e =>
      rw [ModelRequest.serve, hres] at hserved
      cases hserved
    | ok resp =>
      obtain ⟨done⟩ := aggregated_of_ok hres
      obtain ⟨g', -, -, -, happend⟩ := done.versionsOf
      obtain ⟨q, bytes, hone, -⟩ := hafter.version
      have hlength := congrArg List.length (happend.symm.trans hone)
      rw [hsome] at hlength
      simp only [List.length_append, List.length_cons, List.length_nil] at hlength
      omega
  · exact not_done_of_due due hdone

lemma not_recovers_of_promoted {env : PublishEnv}
    (hnone : w.store.getStagedModelForRound roundId = none)
    (hround : ∀ r, w.store.getRound roundId = some r → r.status ≠ .completed) :
    ¬Recovers app user roundId (.publish env) w := by
  rintro ⟨-, hafter⟩
  obtain ⟨-, -, ⟨-, hw⟩ | hpublished⟩ := publishRoundModel_spec app w user roundId env
  · obtain ⟨r, hr, hst⟩ := hafter.round
    rw [ModelRequest.serve, hw] at hr
    exact hround r hr hst
  · obtain ⟨g, username, hg, -⟩ := hpublished.staged
    rw [hnone] at hg
    cases hg

lemma getStagedModelForRound_none {s : Store} (h : ∀ g ∈ s.versionsOf roundId, g.status ≠ .staged) :
    s.getStagedModelForRound roundId = none := by
  cases hg : s.getStagedModelForRound roundId with
  | none => rfl
  | some g =>
    obtain ⟨hget, hround, hst⟩ := Store.getStagedModelForRound_some hg
    exact absurd hst (h g (mem_versionsOf.mpr ⟨Store.mem_globalModels.mpr hget, hround⟩))

lemma unstaged_of_promoted (h : Consistent app w) {g : GlobalModelRow}
    (hget : w.store.getGlobalModel g.versionId = some g) (hround : g.roundId = roundId)
    {username : String} {now : ℚ} :
    ∀ q ∈ (w.store.promoteGlobalModel g.versionId username now).2.versionsOf roundId,
      q.status ≠ .staged := by
  intro q hq
  obtain ⟨hmem, hqround⟩ := mem_versionsOf.mp hq
  have hqget := Store.mem_globalModels.mp hmem
  rw [Store.getGlobalModel_promoteGlobalModel _ _ (by rw [hget]; rfl)] at hqget
  obtain ⟨p, hp, heq⟩ := Option.map_eq_some_iff.mp hqget
  split_ifs at heq
  · rw [← heq]
    simp [Store.promotedRow]
  · -- another version of the round
    rename_i hne
    have hpround : p.roundId = roundId := by
      rw [← hqround, ← heq, Store.archivedRow]
      split <;> rfl
    have hsame := h.unique p (Store.mem_globalModels.mpr
      (by rw [Store.getGlobalModel_versionId hp]; exact hp)) g
      (Store.mem_globalModels.mpr hget) (hpround.trans hround.symm)
    exact absurd (hsame ▸ Store.getGlobalModel_versionId hp) hne

/-- The promotion itself does not complete the round. -/
lemma aggregated_of_promoted (h : Consistent app w) {g : GlobalModelRow}
    (hget : w.store.getGlobalModel g.versionId = some g) (hround : g.roundId = roundId)
    (hst : g.status = .staged) {username : String} {now : ℚ} :
    ∀ r, (w.store.promoteGlobalModel g.versionId username now).2.getRound roundId = some r →
      r.status ≠ .completed := by
  intro r hr
  obtain ⟨versions, hframe⟩ := Store.promoteGlobalModel_frame w.store now g.versionId username
  rw [hframe] at hr
  obtain ⟨r', hr', -, ⟨hagg, -⟩ | ⟨-, hunstaged⟩⟩ := h.round g (Store.mem_globalModels.mpr hget)
  · rw [hround] at hr'
    have hsame : r' = r := Option.some.inj (hr'.symm.trans hr)
    rw [← hsame, hagg]
    decide
  · exact absurd hst hunstaged

/-- After a crash between two writes, repeating the request recovers exactly when the crash came
after the file write and the contributions that are trusted now combine. -/
theorem crash_recovers_iff {es : List Event} {req again : ModelRequest} {ws : List (World → World)}
    {t : World} {k : ℕ} (hwrites : req.writes app user roundId (after app es).world = (.ok ws, t))
    (hk : 0 < k) (hlast : k < ws.length) (hagain : again.Repeats req) :
    Recovers app user roundId again (commit (ws.take k) t) ↔
      ∃ env, again = .aggregate env ∧ k = 1 ∧
        ∃ canonical, Combinable app.python canonical
            (trustedIn app roundId env (commit (ws.take k) t)) := by
  have hconsistent := Consistent.run app es
  cases req with
  | aggregate env =>
    cases again with
    | publish env' => cases hagain
    | aggregate env' =>
      obtain ⟨m, hm, rfl⟩ := bind_pure_eq_ok hwrites
      have hmerged := mergeRound_spec app user roundId env (after app es).world
      rw [wp_def, hm] at hmerged
      obtain ⟨due, hstore, hfiles⟩ := hmerged m rfl
      obtain ⟨r, hr, hrun, hwindow⟩ := due.running
      -- no write before the last one touches the round
      have hdue : ∀ u : World, u.store.rounds = t.store.rounds → Due user roundId env' u := by
        intro u hu
        refine ⟨due.permitted, due.fits, r, ?_, hrun, hwindow.trans hagain⟩
        rw [Store.getRound, hu, hstore.rounds]
        exact hr
      have hnone : t.store.versionsOf roundId = [] := by
        rw [versionsOf_congr hstore.globalModels]
        exact (hconsistent.versionsOf_eq_nil hr).mp hrun
      have hcases : k = 1 ∨ k = 2 := by
        simp only [stageWrites, List.length_cons, List.length_nil] at hlast
        omega
      rcases hcases with rfl | rfl
      · refine (recovers_of_unstaged (hdue (commit ((stageWrites app roundId m env).take 1) t) rfl)
          hnone).trans ?_
        constructor
        · intro hc
          exact ⟨env', rfl, rfl, hc⟩
        · rintro ⟨_, henv, -, hc⟩
          cases henv
          exact hc
      · obtain ⟨g, -, -, -, happend⟩ := versionsOf_stageGlobalModel t.store roundId
          (app.host.sha256hex m.globalBytes) (roundModelPath app.modelDir roundId)
          (env.stagedNow + m.row.params.observationHours.toRat * 3600)
          (some { merge := m.info, contributors := m.gate.results }) env.createdAt
        refine ⟨fun h => absurd h (not_recovers_of_staged (hdue _ rfl) happend), ?_⟩
        rintro ⟨_, -, hone, -⟩
        cases hone
  | publish env =>
    cases again with
    | aggregate env' => cases hagain
    | publish env' =>
      obtain ⟨⟨u, g⟩, hfound, rfl⟩ := bind_pure_eq_ok hwrites
      have hstaged := findStaged_spec user roundId env (after app es).world
      rw [wp_def, hfound] at hstaged
      obtain ⟨rfl, hstaged⟩ := hstaged
      obtain ⟨hget, hround, hst⟩ := Store.getStagedModelForRound_some (hstaged _ rfl)
      have hone : k = 1 := by
        simp only [publishWrites, List.length_cons, List.length_nil] at hlast
        omega
      subst hone
      refine ⟨fun h => absurd h (not_recovers_of_promoted (getStagedModelForRound_none ?_) ?_), ?_⟩
      · exact unstaged_of_promoted hconsistent hget hround
      · exact aggregated_of_promoted hconsistent hget hround hst
      · rintro ⟨_, henv, -⟩
        cases henv

/-- The first model of two uploads is staged. -/
def stagedUpload : List Event := twoUploads ++ [Sample.aggregate firstOnly]

/-- The operator aggregates two uploads. -/
def sampleAggregate : ModelRequest := .aggregate (Sample.aggregateEnv firstOnly)

/-- The operator publishes the staged model. -/
def samplePublish : ModelRequest :=
  .publish { now := 300, promotedAt := 300, completedAt := 300, loggedAt := Sample.zero }

theorem crash_recovers_iff_twoUploads :
    ∃ ws t, sampleAggregate.writes Sample.app (some Sample.admin) 1
        (after Sample.app twoUploads).world = (.ok ws, t) ∧ 1 < ws.length ∧
      (Recovers Sample.app (some Sample.admin) 1 sampleAggregate (commit (ws.take 1) t) ↔
        ∃ env, sampleAggregate = .aggregate env ∧ 1 = 1 ∧
          ∃ canonical, Combinable Sample.app.python canonical
            (trustedIn Sample.app 1 env (commit (ws.take 1) t))) := by
  have hlength : (sampleAggregate.writes Sample.app (some Sample.admin) 1
      (after Sample.app twoUploads).world).1.toOption.map List.length = some 3 := by
    decide +kernel
  rcases hw : sampleAggregate.writes Sample.app (some Sample.admin) 1
    (after Sample.app twoUploads).world with ⟨e | ws, t⟩
  · rw [hw] at hlength
    cases hlength
  · rw [hw] at hlength
    have hlast : 1 < ws.length := by
      rw [Option.some.inj hlength]
      decide
    exact ⟨ws, t, rfl, hlast, crash_recovers_iff hw (by decide) hlast (le_refl _)⟩

/-- A crash before the last write of an aggregation stages the model twice, and one between the
two writes of a publication leaves the round aggregated for good. -/
theorem interrupted_requests_stuck :
    (∃ ws t, sampleAggregate.writes Sample.app (some Sample.admin) 1
        (after Sample.app twoUploads).world = (.ok ws, t) ∧ 2 < ws.length ∧
      ¬Recovers Sample.app (some Sample.admin) 1 sampleAggregate (commit (ws.take 2) t)) ∧
    ∃ ws t, samplePublish.writes Sample.app (some Sample.admin) 1
        (after Sample.app stagedUpload).world = (.ok ws, t) ∧ 1 < ws.length ∧
      ¬Recovers Sample.app (some Sample.admin) 1 samplePublish (commit (ws.take 1) t) := by
  constructor
  · have hversions : (match sampleAggregate.writes Sample.app (some Sample.admin) 1
        (after Sample.app twoUploads).world with
      | (.ok ws, t) => some (ws.length, ((sampleAggregate.serve Sample.app (some Sample.admin) 1
          (commit (ws.take 2) t)).2.store.versionsOf 1).length)
      | (.error _, _) => none) = some (3, 2) := by decide +kernel
    rcases hw : sampleAggregate.writes Sample.app (some Sample.admin) 1
      (after Sample.app twoUploads).world with ⟨e | ws, t⟩
    · rw [hw] at hversions
      cases hversions
    · rw [hw] at hversions
      obtain ⟨hlength, htwo⟩ := Prod.mk.inj (Option.some.inj hversions)
      refine ⟨ws, t, rfl, by rw [hlength]; decide, fun h => ?_⟩
      obtain ⟨g, bytes, hone, -⟩ := h.done.version
      rw [hone] at htwo
      cases htwo
  · have hround : (match samplePublish.writes Sample.app (some Sample.admin) 1
        (after Sample.app stagedUpload).world with
      | (.ok ws, t) => some (ws.length, ((samplePublish.serve Sample.app (some Sample.admin) 1
          (commit (ws.take 1) t)).2.store.getRound 1).map (·.status))
      | (.error _, _) => none) = some (2, some .aggregated) := by decide +kernel
    rcases hw : samplePublish.writes Sample.app (some Sample.admin) 1
      (after Sample.app stagedUpload).world with ⟨e | ws, t⟩
    · rw [hw] at hround
      cases hround
    · rw [hw] at hround
      obtain ⟨hlength, hstatus⟩ := Prod.mk.inj (Option.some.inj hround)
      refine ⟨ws, t, rfl, by rw [hlength]; decide, fun h => ?_⟩
      obtain ⟨r, hr, hst⟩ := h.done.round
      rw [hr] at hstatus
      cases hst.symm.trans (Option.some.inj hstatus)

end Crash

end FlCoordinator
