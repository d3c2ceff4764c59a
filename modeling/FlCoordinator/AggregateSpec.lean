import FlCoordinator.RoundsSpec
import FlCoordinator.TrustSpec

/-!
# What aggregation and publishing do

The scoring loop as a relation, the outcomes of `aggregate_round`, and the effects of publishing
and rolling back.
-/

namespace FlCoordinator

open Lib Handler

section Scoring

variable {app : App} {tm : TrustManager} {roundId : ℤ} {env : ScoreEnv}

lemma App.minTrust_mem (app : App) (settings : TrustSettings) :
    1 / 4 ≤ (app.trustManager settings).minTrust ∧ (app.trustManager settings).minTrust ≤ 1 := by
  have hnear := app.python.round_bounds (q := 3 / 10) (by norm_num) (by norm_num)
  change 1 / 4 ≤ app.python.round (3 / 10) ∧ app.python.round (3 / 10) ≤ 1
  constructor <;> linarith [hnear.1, hnear.2]

/-- A run of the scoring loop from position `i`: what it collects and the world it ends in. -/
inductive Scored (app : App) (tm : TrustManager) (roundId : ℤ) (env : ScoreEnv) :
    ℕ → List Store.AcceptedModel → World → Tally → World → Prop
  | nil (i : ℕ) (w : World) : Scored app tm roundId env i [] w ⟨[], [], []⟩ w
  | missing (i : ℕ) (c : Store.AcceptedModel) (cs : List Store.AcceptedModel) (w t : World)
      (tally : Tally) (file : w.files c.modelPath = none)
      (tail : Scored app tm roundId env (i + 1) cs w tally t) :
      Scored app tm roundId env i (c :: cs) w
        { tally with results := missingResult c :: tally.results } t
  | scored (i : ℕ) (c : Store.AcceptedModel) (cs : List Store.AcceptedModel) (w t : World)
      (tally : Tally) (mb : Bytes) (file : w.files c.modelPath = some mb) (ev : Evaluation)
      (s : Store)
      (verdict : tm.evaluate w.store c.orgId (env.judge i mb) c.numExamples (env.scoredAt i) =
        (ev, s))
      (tail : Scored app tm roundId env (i + 1) cs (w.setStore s) tally t) :
      Scored app tm roundId env i (c :: cs) w
        { survivors := if ev.accepted then ⟨c.orgId, mb, ev.weight⟩ :: tally.survivors
            else tally.survivors
          results := scoredResult c ev :: tally.results
          trustUpdates := trustUpdatesOf app roundId c ev (env.issuedAt i) ++ tally.trustUpdates }
        t

lemma scoreContributions_spec (i : ℕ) (cs : List Store.AcceptedModel) (w : World) :
    (scoreContributions app tm roundId env i cs).wp
      (fun r t => ∃ tally, r = .ok tally ∧ Scored app tm roundId env i cs w tally t) w := by
  induction cs generalizing i w with
  | nil => exact ⟨_, rfl, .nil i w⟩
  | cons c cs ih =>
    rw [scoreContributions]
    apply wp_read_bind
    cases hfile : w.files c.modelPath with
    | none =>
      refine wp_call_bind (ih (i + 1) w) (fun e t h => ?_) fun tally t h => ?_
      · obtain ⟨_, h, -⟩ := h
        cases h
      · obtain ⟨_, h, hs⟩ := h
        cases h
        exact ⟨_, rfl, .missing i c cs w t tally hfile hs⟩
    | some mb =>
      apply wp_insert_bind
      refine wp_call_bind (ih (i + 1) _) (fun e t h => ?_) fun tally t h => ?_
      · obtain ⟨_, h, -⟩ := h
        cases h
      · obtain ⟨_, h, hs⟩ := h
        cases h
        exact ⟨_, rfl, .scored i c cs w t tally mb hfile _ _ rfl hs⟩

lemma Scored.frame {i : ℕ} {cs : List Store.AcceptedModel} {w t : World} {tally : Tally}
    (h : Scored app tm roundId env i cs w tally t) :
    TrustOnly w.store t.store ∧ t.files = w.files ∧ t.crl = w.crl := by
  induction h with
  | nil i w => exact ⟨TrustOnly.refl _, rfl, rfl⟩
  | missing i c cs w t tally hfile tail ih => exact ih
  | scored i c cs w t tally mb hfile ev s hev tail ih =>
    have hframe := (TrustManager.evaluate_frame tm w.store c.orgId (env.judge i mb)
      c.numExamples (env.scoredAt i)).1
    rw [hev] at hframe
    exact ⟨hframe.trans ih.1, ih.2⟩

lemma Scored.results_orgs {i : ℕ} {cs : List Store.AcceptedModel} {w t : World} {tally : Tally}
    (h : Scored app tm roundId env i cs w tally t) :
    tally.results.map (·.orgId) = cs.map (·.orgId) := by
  induction h with
  | nil i w => rfl
  | missing i c cs w t tally hfile tail ih => simp [missingResult, ih]
  | scored i c cs w t tally mb hfile ev s hev tail ih => simp [scoredResult, ih]

lemma Scored.survivors_orgs {i : ℕ} {cs : List Store.AcceptedModel} {w t : World} {tally : Tally}
    (h : Scored app tm roundId env i cs w tally t) :
    tally.survivors.map (·.orgId) = acceptedOrgsOf tally.results := by
  induction h with
  | nil i w => rfl
  | missing i c cs w t tally hfile tail ih => simpa [missingResult, acceptedOrgsOf] using ih
  | scored i c cs w t tally mb hfile ev s hev tail ih =>
    cases hacc : ev.accepted with
    | false => simpa [scoredResult, acceptedOrgsOf, hacc] using ih
    | true => simpa [scoredResult, acceptedOrgsOf, hacc] using ih

end Scoring

section Aggregate

variable {app : App} {w : World}

/-- The store after a merged model was staged and its round closed. -/
def stagedStore (app : App) (r : RoundRow) (roundId : ℤ) (responded : ℕ) (gate : Gate)
    (globalBytes : Bytes) (info : MergeInfo) (env : AggregateEnv) (s : Store) : Store :=
  let globalHash := app.host.sha256hex globalBytes
  let metrics : EvalMetrics := { merge := info, contributors := gate.results }
  let survivors := acceptedOrgsOf gate.results
  (s.stageGlobalModel roundId globalHash (roundModelPath app.modelDir roundId)
      (env.stagedNow + r.params.observationHours.toRat * 3600) (some metrics) env.createdAt).2
    |>.completeRound roundId .aggregated responded survivors.length
      (responded - survivors.length) (some globalHash) (some metrics) env.createdAt

/-- The round of a staged model, with the counters of its aggregation. -/
def aggregatedRow (app : App) (responded : ℕ) (gate : Gate) (globalBytes : Bytes)
    (info : MergeInfo) (r : RoundRow) : RoundRow :=
  { r with
    completedAt := none
    status := .aggregated
    numClientsResponded := responded
    numClientsAccepted := (acceptedOrgsOf gate.results).length
    numClientsRejected := responded - (acceptedOrgsOf gate.results).length
    globalModelHash := some (app.host.sha256hex globalBytes)
    evalMetrics := some { merge := info, contributors := gate.results } }

/-- The version of a staged model. -/
def stagedVersion (app : App) (r : RoundRow) (roundId : ℤ) (gate : Gate) (globalBytes : Bytes)
    (info : MergeInfo) (env : AggregateEnv) (versionId : ℤ) : GlobalModelRow where
  versionId
  roundId
  createdAt := env.createdAt
  stagedUntil := env.stagedNow + r.params.observationHours.toRat * 3600
  status := .staged
  modelHash := app.host.sha256hex globalBytes
  modelPath := roundModelPath app.modelDir roundId
  promotedAt := none
  promotedBy := none
  evalMetrics := some { merge := info, contributors := gate.results }

lemma getGlobalModel_stagedStore (r : RoundRow) (roundId : ℤ) (responded : ℕ) (gate : Gate)
    (globalBytes : Bytes) (info : MergeInfo) (env : AggregateEnv) (s : Store) :
    (stagedStore app r roundId responded gate globalBytes info env s).getGlobalModel
        (s.globalModels.seq + 1) =
      some (stagedVersion app r roundId gate globalBytes info env (s.globalModels.seq + 1)) := by
  refine (AutoTable.get?_insert (t := s.globalModels)
    (f := stagedVersion app r roundId gate globalBytes info env) (e := fun _ => rfl) _).trans ?_
  rw [if_pos rfl]

lemma stagedStore_frame (app : App) (r : RoundRow) (roundId : ℤ) (responded : ℕ) (gate : Gate)
    (globalBytes : Bytes) (info : MergeInfo) (env : AggregateEnv) (s : Store) :
    ∃ rounds versions,
      stagedStore app r roundId responded gate globalBytes info env s =
        { s with rounds, globalModels := versions } ∧
      (∀ k, rounds.get? k = if roundId = k then
        (s.getRound k).map (aggregatedRow app responded gate globalBytes info)
        else s.getRound k) ∧
      ∀ j, versions.get? j = if j = s.globalModels.seq + 1 then
        some (stagedVersion app r roundId gate globalBytes info env j) else s.getGlobalModel j :=
  ⟨_, _, rfl, fun k => AutoTable.get?_update (t := s.rounds) roundId k
    (aggregatedRow app responded gate globalBytes info) fun _ => rfl,
    fun j => AutoTable.get?_insert (t := s.globalModels)
      (f := stagedVersion app r roundId gate globalBytes info env) (e := fun _ => rfl) j⟩

/-- A round that was aggregated: its scoring, gate and merge, and what was staged. -/
structure Aggregated (app : App) (user : Option FLUser) (roundId : ℤ) (env : AggregateEnv)
    (w : World) (resp : AggregateResponse) (t : World) where
  permitted : Permitted user "fl_aggregate_round"
  row : RoundRow
  settings : TrustSettings
  tally : Tally
  scoredWorld : World
  canonical : Schema
  gate : Gate
  bytes : Bytes
  info : MergeInfo
  found : w.store.getRound roundId = some row
  running : row.status = .running
  window : row.startedAt + row.params.observationHours.toRat * 3600 ≤ env.now
  trust : app.trust = some settings
  scored : Scored app (app.trustManager settings) roundId env.score 0
    (w.store.getAcceptedModels roundId) w tally scoredWorld
  gated : schemaGate app.python tally = .ok (canonical, gate)
  merged : mergeXgboostModels app.python gate.weighted = .ok (bytes, info)
  store : t.store = stagedStore app row roundId (w.store.getAcceptedModels roundId).length gate
    bytes info env scoredWorld.store
  files : t.files = Function.update scoredWorld.files (roundModelPath app.modelDir roundId)
    (some bytes)
  crl : t.crl = w.crl
  response : resp.acceptedOrgs = acceptedOrgsOf gate.results ∧ resp.merge = info ∧
    resp.globalModelSha256 = app.host.sha256hex bytes
  rejected : resp.rejected = gate.results.filter (fun x => !x.accepted)
  version : resp.versionId = scoredWorld.store.globalModels.seq + 1

/-- Aggregation fails with only trust columns changed, or stages a model. -/
theorem aggregateRound_spec (app : App) (w : World) (user : Option FLUser) (roundId : ℤ)
    (env : AggregateEnv) :
    (aggregateRound app user roundId env).wp
      (fun r t =>
        (∃ e, r = .error e ∧ TrustOnly w.store t.store ∧ t.files = w.files ∧ t.crl = w.crl) ∨
        ∃ resp, r = .ok resp ∧ Nonempty (Aggregated app user roundId env w resp t)) w := by
  have hfail : ∀ e : Failure,
      (∃ d, (Except.error e : Except Failure AggregateResponse) = .error d ∧
        TrustOnly w.store w.store ∧ w.files = w.files ∧ w.crl = w.crl) ∨
      ∃ resp, (Except.error e : Except Failure AggregateResponse) = .ok resp ∧
        Nonempty (Aggregated app user roundId env w resp w) :=
    fun e => Or.inl ⟨e, rfl, TrustOnly.refl _, rfl, rfl⟩
  unfold aggregateRound requireRunning
  apply wp_flRequire_bind (fun _ => hfail)
  intro u hu hperm
  apply wp_requireRound_bind hfail
  intro r hr
  apply wp_ensure_bind (fun _ => hfail _)
  intro hrun
  apply wp_ensure_bind (fun _ => hfail _)
  intro hwindow
  apply wp_orRaise_bind (fun _ => hfail _)
  intro settings hsettings
  apply wp_query_bind
  apply wp_ensure_bind (fun _ => hfail _)
  intro hne
  refine wp_call_bind (scoreContributions_spec 0 _ w) (fun e t h => ?_) fun tally t h => ?_
  · obtain ⟨_, h, -⟩ := h
    cases h
  obtain ⟨_, h, hscored⟩ := h
  cases h
  have hframe := hscored.frame
  have hfail' : ∀ (e : Failure) (v : World), v.store = t.store → v.files = t.files →
      v.crl = t.crl →
      (∃ d, (Except.error e : Except Failure AggregateResponse) = .error d ∧
        TrustOnly w.store v.store ∧ v.files = w.files ∧ v.crl = w.crl) ∨
      ∃ resp, (Except.error e : Except Failure AggregateResponse) = .ok resp ∧
        Nonempty (Aggregated app user roundId env w resp v) := by
    intro e v hs hf hc
    refine Or.inl ⟨e, rfl, ?_, hf.trans hframe.2.1, hc.trans hframe.2.2⟩
    rw [hs]
    exact hframe.1
  apply wp_ensure_bind (fun _ => hfail' _ t rfl rfl rfl)
  intro hsome
  apply wp_attempt_bind (fun e _ => hfail' _ t rfl rfl rfl)
  intro cg hgate
  obtain ⟨canonical, gate⟩ := cg
  -- the audit entry for excluded schemas changes nothing below
  have hrest : ∀ v : World, v.store = t.store → v.files = t.files → v.crl = t.crl →
      (attempt (mergeXgboostModels app.python gate.weighted) Failure.uncaught >>= fun p =>
        stageRound app u r roundId (w.store.getAcceptedModels roundId).length gate
          tally.trustUpdates p.1 p.2 env).wp
      (fun r t => (∃ e, r = .error e ∧ TrustOnly w.store t.store ∧ t.files = w.files ∧
          t.crl = w.crl) ∨
        ∃ resp, r = .ok resp ∧ Nonempty (Aggregated app user roundId env w resp t)) v := by
    intro v hs hf hc
    apply wp_attempt_bind (fun e _ => hfail' _ v hs hf hc)
    intro p hmerge
    obtain ⟨bytes, info⟩ := p
    unfold stageRound
    refine wp_writeFile_bind (wp_insert_bind (wp_execute_bind (wp_log_bind ?_)))
    refine Or.inr ⟨_, rfl, ⟨{
      permitted := ⟨u, hu, hperm⟩
      row := r
      settings
      tally
      scoredWorld := t
      canonical
      gate
      bytes
      info
      found := hr
      running := hrun
      window := by linarith
      trust := hsettings
      scored := hscored
      gated := hgate
      merged := hmerge
      store := ?_
      files := ?_
      crl := hc.trans hframe.2.2
      response := ⟨rfl, rfl, rfl⟩
      rejected := rfl
      version := ?_ }⟩⟩
    · rw [← hs]
      rfl
    · rw [← hf]
      rfl
    · rw [← hs]
      rfl
  by_cases hex : gate.excludedSchema ≠ []
  · simp only [if_pos hex]
    apply wp_attempt_bind (fun e _ => hfail' _ t rfl rfl rfl)
    intro shown _
    apply wp_log_bind
    exact hrest _ rfl rfl rfl
  · simp only [if_neg hex]
    exact hrest _ rfl rfl rfl

end Aggregate

section Publish

variable {app : App} {w : World}

/-- A published round: its staged version is promoted and the round completed. -/
structure Published (roundId : ℤ) (env : PublishEnv) (s s' : Store) : Prop where
  staged : ∃ g username, s.getStagedModelForRound roundId = some g ∧ g.stagedUntil ≤ env.now ∧
    s' = (s.promoteGlobalModel g.versionId username env.promotedAt).2.setRoundStatus roundId
      .completed env.completedAt

lemma publishRoundModel_spec (app : App) (w : World) (user : Option FLUser) (roundId : ℤ)
    (env : PublishEnv) :
    (publishRoundModel app user roundId env).wp
      (fun r t => t.crl = w.crl ∧ t.files = w.files ∧ (((∃ e, r = .error e) ∧ t = w) ∨
        Published roundId env w.store t.store)) w := by
  unfold publishRoundModel
  apply wp_flRequire_bind (fun _ e => ⟨rfl, rfl, Or.inl ⟨⟨e, rfl⟩, rfl⟩⟩)
  intro u hu hperm
  apply wp_requireRound_bind (fun e => ⟨rfl, rfl, Or.inl ⟨⟨e, rfl⟩, rfl⟩⟩)
  intro r hr
  apply wp_query_bind
  apply wp_orRaise_bind (fun _ => ⟨rfl, rfl, Or.inl ⟨⟨_, rfl⟩, rfl⟩⟩)
  intro g hg
  apply wp_ensure_bind (fun _ => ⟨rfl, rfl, Or.inl ⟨⟨_, rfl⟩, rfl⟩⟩)
  intro hsoak
  refine wp_insert_bind (wp_execute_bind ?_)
  have hdone : Published roundId env w.store
      ((w.store.promoteGlobalModel g.versionId u.username env.promotedAt).2.setRoundStatus roundId
        .completed env.completedAt) :=
    ⟨g, u.username, hg, by linarith, rfl⟩
  apply wp_orRaise_bind (fun _ => ⟨rfl, rfl, Or.inr hdone⟩)
  intro gm _
  apply wp_log_bind
  exact ⟨rfl, rfl, Or.inr hdone⟩

/-- A rollback: a version that is not staged is promoted. -/
structure RolledBack (versionId : ℤ) (env : RollbackEnv) (s s' : Store) : Prop where
  target : ∃ g username, s.getGlobalModel versionId = some g ∧ g.status ≠ .staged ∧
    s' = (s.promoteGlobalModel versionId username env.promotedAt).2

lemma rollbackGlobalModel_spec (app : App) (w : World) (user : Option FLUser) (versionId : ℤ)
    (env : RollbackEnv) :
    (rollbackGlobalModel app user versionId env).wp
      (fun r t => t.crl = w.crl ∧ t.files = w.files ∧ (((∃ e, r = .error e) ∧ t = w) ∨
        RolledBack versionId env w.store t.store)) w := by
  unfold rollbackGlobalModel
  apply wp_flRequire_bind (fun _ e => ⟨rfl, rfl, Or.inl ⟨⟨e, rfl⟩, rfl⟩⟩)
  intro u hu hperm
  apply wp_attempt_bind (fun e _ => ⟨rfl, rfl, Or.inl ⟨⟨_, rfl⟩, rfl⟩⟩)
  intro id hid
  obtain rfl := bindInt_ok hid
  apply wp_query_bind
  apply wp_orRaise_bind (fun _ => ⟨rfl, rfl, Or.inl ⟨⟨_, rfl⟩, rfl⟩⟩)
  intro g hg
  apply wp_ensure_bind (fun _ => ⟨rfl, rfl, Or.inl ⟨⟨_, rfl⟩, rfl⟩⟩)
  intro hst
  apply wp_insert_bind
  have hdone : RolledBack id env w.store
      (w.store.promoteGlobalModel id u.username env.promotedAt).2 :=
    ⟨g, u.username, hg, hst, rfl⟩
  apply wp_orRaise_bind (fun _ => ⟨rfl, rfl, Or.inr hdone⟩)
  intro gm _
  apply wp_log_bind
  exact ⟨rfl, rfl, Or.inr hdone⟩

end Publish

end FlCoordinator
