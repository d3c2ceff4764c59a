import FlCoordinator.Contributions
import FlCoordinator.Exclusion
import FlCoordinator.MergeSpec

/-!
# What a global model is made of

The staged model of an aggregation against the contributions that took part in it, and the list
of orgs that the coordinator signs when it serves a published model.
-/

namespace FlCoordinator

open Lib

/-! ### The contributions of a round -/

/-- The accepted contributions of a round. -/
def Store.acceptedIn (s : Store) (roundId : ℤ) : List ContributionRow :=
  s.contributions.rows.filter (fun c => c.roundId = roundId ∧ c.accepted = true)

/-- Each org has at most one accepted contribution in the round. -/
def OneEach (s : Store) (roundId : ℤ) : Prop :=
  ((s.acceptedIn roundId).map (·.orgId)).Nodup

section Accepted

variable {app : App} {es : List Event}

lemma accepted_complete {c : ContributionRow}
    (h : c ∈ (after app es).world.store.contributions.rows) (hacc : c.accepted = true) :
    c.modelPath.isSome ∧ ((after app es).world.store.getOrg c.orgId).isSome := by
  obtain ⟨pre, e, post, p, env, chal, n, rfl, hp, rfl⟩ := accepted_origin h hacc
  obtain ⟨pem, -, -, hkey, -⟩ := hp.evidence.signed
  obtain ⟨-, row, hrow, -⟩ := Store.getOrgPublicKey_eq_some.mp hkey
  refine ⟨rfl, ?_⟩
  rw [after_append]
  exact run_invariant_all (next app) (I := fun s => (s.world.store.getOrg p.orgId).isSome)
    (fun s e h => isSome_getOrg_next e h) (by rw [hrow]; rfl) (e :: post)

lemma getAcceptedModels_orgs (app : App) (es : List Event) (roundId : ℤ) :
    (((after app es).world.store.getAcceptedModels roundId).map (·.orgId)).Perm
      (((after app es).world.store.acceptedIn roundId).map (·.orgId)) := by
  rw [Store.getAcceptedModels, List.map_map, Store.acceptedContributions]
  refine ((List.perm_insertionSort _ _).map _).trans (List.Perm.of_eq ?_)
  rw [Store.acceptedIn]
  refine congrArg (List.map ContributionRow.orgId) (List.filter_congr fun c hc => ?_)
  simp only [decide_eq_decide]
  constructor
  · intro h
    exact ⟨h.1, h.2.1⟩
  · intro h
    exact ⟨h.1, h.2, (accepted_complete hc h.2).1⟩

lemma isSome_getOrg_of_mem_getAcceptedModels {roundId : ℤ} {c : Store.AcceptedModel}
    (h : c ∈ (after app es).world.store.getAcceptedModels roundId) :
    ((after app es).world.store.getOrg c.orgId).isSome := by
  have horg := (getAcceptedModels_orgs app es roundId).mem_iff.mp (List.mem_map_of_mem h)
  obtain ⟨d, hd, horg⟩ := List.mem_map.mp horg
  obtain ⟨hd, hacc⟩ := List.mem_filter.mp hd
  rw [decide_eq_true_eq] at hacc
  rw [← horg]
  exact (accepted_complete hd hacc.2).2

end Accepted

/-! ### A staged model -/

section Staged

variable {app : App}

/-- The trust manager accepts the contribution `c` of the round, with the bytes `mb`. -/
def TrustedIn (app : App) (settings : TrustSettings) (roundId : ℤ) (env : AggregateEnv) (w : World)
    (c : Store.AcceptedModel) (mb : Bytes) (ev : Evaluation) : Prop :=
  Trusted (app.trustManager settings) env.score 0 (w.store.getAcceptedModels roundId) w c mb ev

/-- What the aggregation of a round in the world `w`, which leaves the world `t`, guarantees. -/
structure SoundAggregation (app : App) (roundId : ℤ) (env : AggregateEnv) (w : World)
    (resp : AggregateResponse) (t : World) where
  settings : TrustSettings
  trust : app.trust = some settings
  /-- The schema of a heaviest trusted contribution. -/
  canonical : Schema
  heaviest : ∃ c mb ev, TrustedIn app settings roundId env w c mb ev ∧
    modelFeatureSchema app.python mb = .ok canonical ∧
    ∀ c' mb' ev', TrustedIn app settings roundId env w c' mb' ev' → ev'.weight ≤ ev.weight
  /-- An accepted org was trusted, kept its trust on record, and has the schema. -/
  orgs : ∀ x ∈ resp.acceptedOrgs, ∃ c mb ev, TrustedIn app settings roundId env w c mb ev ∧
    c.orgId = x ∧ FitsSchema app.python canonical mb ∧
    ∃ row, t.store.getOrg x = some row ∧ row.trustScore = ev.trust ∧
      (app.trustManager settings).minTrust ≤ row.trustScore
  /-- The version on record and its file. -/
  bytes : Bytes
  version : ∃ g, t.store.getGlobalModel resp.versionId = some g ∧ g.roundId = roundId ∧
    g.status = .staged ∧ g.modelHash = app.host.sha256hex bytes ∧ t.files g.modelPath = some bytes
  /-- Every tree of the model comes from a contribution that was kept. -/
  trees : ∃ merged trees, Json.loads bytes = .ok merged ∧ getTrees merged = .ok (.arr trees) ∧
    ∀ tree ∈ trees, ∃ c mb ev tree', TrustedIn app settings roundId env w c mb ev ∧
      FitsSchema app.python canonical mb ∧ c.orgId ∈ resp.acceptedOrgs ∧ HasTree app.python mb tree' ∧
      SameUpToId tree tree'
  /-- The round has one result for each accepted contribution. -/
  row : RoundRow
  metrics : EvalMetrics
  closed : t.store.getRound roundId = some row ∧ row.evalMetrics = some metrics
  results : (metrics.contributors.map (·.orgId)).Perm
      ((w.store.acceptedIn roundId).map (·.orgId)) ∧
    acceptedOrgsOf metrics.contributors = resp.acceptedOrgs
  counters : row.numClientsResponded = (w.store.acceptedIn roundId).length ∧
    row.numClientsResponded = row.numClientsAccepted + row.numClientsRejected ∧
    row.numClientsAccepted = resp.acceptedOrgs.length

lemma acceptedOrgsOf_length_le (results : List ContributorResult) :
    (acceptedOrgsOf results).length ≤ results.length := by
  rw [acceptedOrgsOf, List.length_map]
  exact List.length_filter_le _ _

namespace Aggregated

variable {user : Option FLUser} {roundId : ℤ} {env : AggregateEnv} {w t : World}
  {resp : AggregateResponse}

/-- An org is accepted when it has a trusted contribution and all of them have the schema. -/
lemma mem_acceptedOrgs (h : Aggregated app user roundId env w resp t) {x : String} :
    x ∈ resp.acceptedOrgs ↔
      (∃ c mb ev, TrustedIn app h.settings roundId env w c mb ev ∧ c.orgId = x) ∧
        ∀ c mb ev, TrustedIn app h.settings roundId env w c mb ev → c.orgId = x →
          FitsSchema app.python h.canonical mb := by
  obtain ⟨-, -, -, hacc⟩ := schemaGate_spec h.gated
  rw [h.response.1, hacc, ← h.scored.survivors_orgs, List.mem_map]
  simp only [h.scored.mem_survivors, TrustedIn]
  constructor
  · rintro ⟨⟨-, ⟨c, mb, ev, htr, rfl⟩, rfl⟩, hfits⟩
    exact ⟨⟨c, mb, ev, htr, rfl⟩,
      fun d nb dv hd horg => hfits _ ⟨d, nb, dv, hd, rfl⟩ horg⟩
  · rintro ⟨⟨c, mb, ev, htr, rfl⟩, hfits⟩
    refine ⟨⟨_, ⟨c, mb, ev, htr, rfl⟩, rfl⟩, ?_⟩
    rintro - ⟨d, nb, dv, hd, rfl⟩ horg
    exact hfits d nb dv hd horg

lemma getRound (h : Aggregated app user roundId env w resp t) :
    t.store.getRound roundId = some (aggregatedRow app (w.store.getAcceptedModels roundId).length
      h.gate h.bytes h.info h.row) := by
  obtain ⟨rounds, versions, hstage, hget, -⟩ := stagedStore_frame app h.row roundId
    (w.store.getAcceptedModels roundId).length h.gate h.bytes h.info env h.scoredWorld.store
  have hfound : h.scoredWorld.store.getRound roundId = some h.row := by
    rw [Store.getRound, h.scored.frame.1.rounds]
    exact h.found
  rw [h.store, hstage]
  exact (hget roundId).trans (by rw [if_pos rfl, hfound]; rfl)

lemma getOrg (h : Aggregated app user roundId env w resp t) (x : String) :
    t.store.getOrg x = h.scoredWorld.store.getOrg x := by
  obtain ⟨rounds, versions, hstage, -⟩ := stagedStore_frame app h.row roundId
    (w.store.getAcceptedModels roundId).length h.gate h.bytes h.info env h.scoredWorld.store
  rw [h.store, hstage]
  rfl

end Aggregated

/-- Where each org has at most one accepted contribution, a successful aggregation stages a model
of trees from the accepted orgs only, whatever the files hold and the trust manager says. -/
theorem aggregation_sound {es : List Event} {w : World} {user : Option FLUser} {roundId : ℤ}
    {env : AggregateEnv} {resp : AggregateResponse}
    (hstore : w.store = (after app es).world.store) (hone : OneEach w.store roundId)
    (hok : (aggregateRound app user roundId env w).1 = .ok resp) :
    Nonempty (SoundAggregation app roundId env w resp (aggregateRound app user roundId env w).2) := by
  have hspec := aggregateRound_spec app w user roundId env
  rw [Handler.wp_def] at hspec
  generalize (aggregateRound app user roundId env w).2 = t at hspec
  rcases hspec with ⟨e, he, -⟩ | ⟨resp', hresp, ⟨done⟩⟩
  · rw [hok] at he
    cases he
  rw [hok] at hresp
  obtain rfl := Except.ok.inj hresp
  have horgs := getAcceptedModels_orgs app es roundId
  rw [← hstore] at horgs
  have hknown : ∀ c ∈ w.store.getAcceptedModels roundId, (w.store.getOrg c.orgId).isSome := by
    intro c hc
    rw [hstore] at hc ⊢
    exact isSome_getOrg_of_mem_getAcceptedModels hc
  obtain ⟨⟨v, hv, hmax, hcanonical⟩, hresults, hweighted, -⟩ := schemaGate_spec done.gated
  have hlength : (w.store.getAcceptedModels roundId).length =
      (w.store.acceptedIn roundId).length := by simpa using horgs.length_eq
  -- the entry of a trusted contribution in the gate's list
  have hfrom : ∀ p ∈ done.gate.weighted, ∃ c mb ev, TrustedIn app done.settings roundId env w c mb ev ∧
      p = (mb, ev.weight) ∧ FitsSchema app.python done.canonical mb := by
    intro p hp
    obtain ⟨u, hu, rfl, hfits⟩ := hweighted p hp
    obtain ⟨c, mb, ev, htr, rfl⟩ := done.scored.mem_survivors.mp hu
    exact ⟨c, mb, ev, htr, rfl, hfits⟩
  -- an org has one trusted contribution only
  have huniq : ∀ c mb ev c' mb' ev', TrustedIn app done.settings roundId env w c mb ev →
      TrustedIn app done.settings roundId env w c' mb' ev' → c'.orgId = c.orgId → mb' = mb := by
    intro c mb ev c' mb' ev' htr htr' horg
    have hnodup : ((w.store.getAcceptedModels roundId).map (·.orgId)).Nodup :=
      horgs.nodup_iff.mpr hone
    obtain ⟨hc, hfile, -⟩ := htr.mem
    obtain ⟨hc', hfile', -⟩ := htr'.mem
    obtain rfl := List.inj_on_of_nodup_map hnodup hc' hc horg
    exact Option.some.inj (hfile'.symm.trans hfile)
  obtain ⟨merged, trees, hload, htrees, hall⟩ := mergeXgboostModels_trees done.merged
  obtain ⟨c, mb, ev, htr, rfl⟩ := done.scored.mem_survivors.mp hv
  refine ⟨{
    settings := done.settings
    trust := done.trust
    canonical := done.canonical
    heaviest := ⟨c, mb, ev, htr, hcanonical, fun c' mb' ev' htr' =>
      hmax _ (done.scored.mem_survivors.mpr ⟨c', mb', ev', htr', rfl⟩)⟩
    orgs := fun x hx => ?_
    bytes := done.bytes
    version := ⟨stagedVersion app done.row roundId done.gate done.bytes done.info env resp.versionId,
      ?_, rfl, rfl, rfl, ?_⟩
    trees := ⟨merged, trees, hload, htrees, fun tree ht => ?_⟩
    row := _
    metrics := _
    closed := ⟨done.getRound, rfl⟩
    results := ⟨?_, done.response.1.symm⟩
    counters := ⟨hlength, ?_, by rw [done.response.1]; rfl⟩ }⟩
  · obtain ⟨⟨c, mb, ev, htr, rfl⟩, hfits⟩ := done.mem_acceptedOrgs.mp hx
    refine ⟨c, mb, ev, htr, rfl, hfits c mb ev htr rfl, ?_⟩
    rw [done.getOrg]
    exact done.scored.trust_persists (horgs.nodup_iff.mpr hone) hknown
      (app.minTrust_mem done.settings).2 htr
  · rw [done.store, done.version]
    exact getGlobalModel_stagedStore _ _ _ _ _ _ _ _
  · rw [done.files]
    exact Function.update_self _ _ _
  · obtain ⟨p, hp, tree', hhas, hsame⟩ := hall tree ht
    obtain ⟨c, mb, ev, htr, rfl, hfits⟩ := hfrom p hp
    refine ⟨c, mb, ev, tree', htr, hfits, done.mem_acceptedOrgs.mpr
      ⟨⟨c, mb, ev, htr, rfl⟩, fun c' mb' ev' htr' horg => ?_⟩, hhas, hsame⟩
    rw [huniq c mb ev c' mb' ev' htr htr' horg]
    exact hfits
  · exact (List.Perm.of_eq (hresults.trans done.scored.results_orgs)).trans horgs
  · have hle := acceptedOrgsOf_length_le done.gate.results
    have hlen := congrArg List.length (hresults.trans done.scored.results_orgs)
    simp only [List.length_map] at hlen
    simp only [aggregatedRow]
    omega

/-- Two orgs upload a model each. -/
def twoUploads : List Event :=
  [Sample.enroll "x" [1] 11, Sample.enroll "y" [2] 12, Sample.start none,
    Sample.challenge "a" (Sample.certOf "x" [1] 11), Sample.challenge "b" (Sample.certOf "y" [2] 12),
    Sample.contribute "x" "a" [1] 11 Sample.model, Sample.contribute "y" "b" [2] 12 Sample.model,
    Sample.resume, Sample.resume]

/-- The first model scores well, the second one cannot be scored. -/
def firstOnly : ℕ → Judgement
  | 0 => .scored 1
  | _ => .unscored "labels"

theorem aggregation_sound_twoUploads :
    ∃ resp : AggregateResponse, resp.acceptedOrgs = ["x"] ∧
      Nonempty (SoundAggregation Sample.app 1 (Sample.aggregateEnv firstOnly)
        (after Sample.app twoUploads).world resp
        (aggregateRound Sample.app (some Sample.admin) 1 (Sample.aggregateEnv firstOnly)
          (after Sample.app twoUploads).world).2) := by
  have hone : ((after Sample.app twoUploads).world.store.acceptedIn 1).map (·.orgId) =
      ["x", "y"] := by decide +kernel
  have hresp : (aggregateRound Sample.app (some Sample.admin) 1 (Sample.aggregateEnv firstOnly)
      (after Sample.app twoUploads).world).1.toOption.map (·.acceptedOrgs) = some ["x"] := by
    decide +kernel
  obtain ⟨resp, hok, horgs⟩ := Option.map_eq_some_iff.mp hresp
  refine ⟨resp, horgs, aggregation_sound rfl ?_ ?_⟩
  · rw [OneEach, hone]
    decide
  · cases hres : (aggregateRound Sample.app (some Sample.admin) 1 (Sample.aggregateEnv firstOnly)
        (after Sample.app twoUploads).world).1 with
    | error e =>
      rw [hres] at hok
      cases hok
    | ok r =>
      rw [hres] at hok
      rw [Option.some.inj hok]

end Staged

/-! ### The signed list of a served model -/

section Served

variable {app : App}

/-- The orgs that the aggregation of a round recorded as accepted. -/
def recordedOrgs (s : Store) (roundId : ℤ) : Option (List String) :=
  (s.getRound roundId).bind (fun r => r.evalMetrics.map (fun m => acceptedOrgsOf m.contributors))

/-- The signed list of a served model names the orgs that were recorded for its round. -/
def ListsRecorded (s : Store) (m : SignedModel) : Prop :=
  ∃ ids recorded, readOrgs "accepted_orgs" m.signedAttestation = some ids ∧
    recordedOrgs s m.roundId = some recorded ∧ ∀ x, x ∈ ids ↔ x ∈ recorded

/-- Every model that is served now has the list of its aggregation. -/
structure SignedListsAgree (app : App) (w : World) : Prop where
  ofRound : ∀ req roundId env m, (getRoundGlobalModel app req roundId env w).1 = .ok m →
    m.roundId = roundId ∧ ListsRecorded w.store m
  active : ∀ req env m version, (getActiveGlobalModel app req env w).1 = .ok (m, version) →
    ListsRecorded w.store m

/-- The response carries these bytes, signed for the round with the orgs of its accepted
contributions. -/
structure Carries (app : App) (w : World) (roundId : ℤ) (modelBytes : Bytes) (m : SignedModel) :
    Prop where
  round : m.roundId = roundId
  encoded : m.modelB64 = app.host.b64encode modelBytes
  attested : ∃ ids distributedAt, m.signedAttestation =
      buildGlobalModelAttestation app.host roundId modelBytes ids distributedAt ∧
    ∀ x, x ∈ ids ↔ x ∈ (w.store.acceptedIn roundId).map (·.orgId)
  signed : ∃ coordPriv, app.coordPriv = some coordPriv ∧
    m.signatureHex = toHex (sign app.host coordPriv m.signedAttestation)

lemma Carries.orgs {w : World} {roundId : ℤ} {modelBytes : Bytes} {m : SignedModel}
    (h : Carries app w roundId modelBytes m) :
    ∃ ids, readOrgs "accepted_orgs" m.signedAttestation = some ids ∧
      ∀ x, x ∈ ids ↔ x ∈ (w.store.acceptedIn roundId).map (·.orgId) := by
  obtain ⟨ids, distributedAt, hatt, hids⟩ := h.attested
  use sortedIds ids
  constructor
  · rw [hatt]
    exact readOrgs_globalModel _ _ _ _ _
  · intro x
    rw [mem_sortedIds]
    exact hids x

lemma signedModelResponse_ok {roundId : ℤ} {modelBytes : Bytes} {distributedAt : String}
    {w : World} {m : SignedModel}
    (h : (signedModelResponse app roundId modelBytes distributedAt w).1 = .ok m) :
    Carries app w roundId modelBytes m := by
  have hspec : (signedModelResponse app roundId modelBytes distributedAt).wp
      (fun r _ => ∀ m, r = .ok m → Carries app w roundId modelBytes m) w := by
    unfold signedModelResponse
    apply wp_query_bind
    apply Handler.wp_orRaise_bind (fun _ m hm => by cases hm)
    intro coordPriv hkey m hm
    obtain rfl := Except.ok.inj hm
    constructor
    · rfl
    · rfl
    case signed => exact ⟨coordPriv, hkey, rfl⟩
    dsimp only
    refine ⟨_, distributedAt, rfl, ?_⟩
    intro x
    have hmem : ∀ c, c ∈ (w.store.listContributions roundId).filter (·.accepted) ↔
        c ∈ w.store.acceptedIn roundId := by
      intro c
      rw [List.mem_filter, Store.listContributions, (List.perm_insertionSort _ _).mem_iff]
      simp only [Store.acceptedIn, List.mem_filter, decide_eq_true_eq, and_assoc]
    simp only [sortedSet, mem_sortedIds, List.mem_dedup, List.mem_map, hmem]
  exact hspec m h

lemma getRoundGlobalModel_ok {req : Request} {roundId : ℤ} {env : ServeEnv} {w : World}
    {m : SignedModel} (h : (getRoundGlobalModel app req roundId env w).1 = .ok m) :
    (∃ r, w.store.getRound roundId = some r ∧ r.status = .completed) ∧
      ∃ bytes, w.files (roundModelPath app.modelDir roundId) = some bytes ∧
        Carries app w roundId bytes m := by
  have hspec : (getRoundGlobalModel app req roundId env).wp
      (fun r _ => ∀ m, r = .ok m →
        (∃ r, w.store.getRound roundId = some r ∧ r.status = .completed) ∧
        ∃ bytes, w.files (roundModelPath app.modelDir roundId) = some bytes ∧
          Carries app w roundId bytes m) w := by
    unfold getRoundGlobalModel
    apply wp_authenticate_bind (fun _ m hm => by cases hm)
    intro orgId _
    apply wp_requireRound_bind (fun _ m hm => by cases hm)
    intro r hr
    apply Handler.wp_ensure_bind (fun _ m hm => by cases hm)
    intro hst
    apply Handler.wp_read_bind
    apply Handler.wp_orRaise_bind (fun _ m hm => by cases hm)
    intro bytes hbytes m hm
    exact ⟨⟨r, hr, hst⟩, bytes, hbytes, signedModelResponse_ok hm⟩
  exact hspec m h

lemma getActiveGlobalModel_ok {req : Request} {env : ServeEnv} {w : World} {m : SignedModel}
    {version : ℤ} (h : (getActiveGlobalModel app req env w).1 = .ok (m, version)) :
    ∃ g bytes, w.store.getGlobalModel version = some g ∧ g.status = .active ∧
      w.files g.modelPath = some bytes ∧ Carries app w g.roundId bytes m := by
  have hspec : (getActiveGlobalModel app req env).wp
      (fun r _ => ∀ m version, r = .ok (m, version) →
        ∃ g bytes, w.store.getGlobalModel version = some g ∧ g.status = .active ∧
        w.files g.modelPath = some bytes ∧ Carries app w g.roundId bytes m) w := by
    unfold getActiveGlobalModel
    apply wp_authenticate_bind (fun _ m v hm => by cases hm)
    intro orgId _
    apply wp_query_bind
    apply Handler.wp_orRaise_bind (fun _ m v hm => by cases hm)
    intro g hg
    apply Handler.wp_read_bind
    apply Handler.wp_orRaise_bind (fun _ m v hm => by cases hm)
    intro bytes hbytes
    rw [Handler.wp_bind]
    simp only [Handler.wp_def]
    cases hres : (signedModelResponse app g.roundId bytes env.distributedAt w).1 with
    | error e => exact fun m v hm => by cases hm
    | ok signed =>
      intro m v hm
      obtain ⟨rfl, rfl⟩ := Prod.mk.inj (Except.ok.inj hm)
      obtain ⟨hget, hst⟩ := Store.getActiveGlobalModel_some hg
      exact ⟨g, bytes, hget, hst, hbytes, signedModelResponse_ok hres⟩
  exact hspec m version h

/-- Both models have one feature schema. -/
def SameSchema (app : App) (mb nb : Bytes) : Prop :=
  ∃ a b, modelFeatureSchema app.python mb = .ok a ∧ modelFeatureSchema app.python nb = .ok b ∧
      a.same b = true

/-- The step excludes no org of a round: an aggregation that gets as far as merging trusts a
contribution of every org, all of them with one schema, and an upload that is accepted when its
round is no longer running is from an org on the record. -/
structure ExcludesNone (app : App) (s : Sys) (e : Event) : Prop where
  merge : ∀ user roundId env r settings, e = .aggregate user roundId env →
    Permitted user "fl_aggregate_round" → s.world.store.getRound roundId = some r →
    r.status = .running → r.startedAt + r.params.observationHours.toRat * 3600 ≤ env.now →
    app.trust = some settings → (∃ c mb ev, TrustedIn app settings roundId env s.world c mb ev) →
    (∀ d ∈ s.world.store.acceptedIn roundId,
      ∃ c mb ev, TrustedIn app settings roundId env s.world c mb ev ∧ c.orgId = d.orgId) ∧
    ∀ c mb ev c' mb' ev', TrustedIn app settings roundId env s.world c mb ev →
      TrustedIn app settings roundId env s.world c' mb' ev' → SameSchema app mb mb'
  late : ∀ p env chal n r, Accepts app s e p env chal n →
    s.world.store.getRound p.roundId = some r → r.status ≠ .running →
    ∃ recorded, recordedOrgs s.world.store p.roundId = some recorded ∧ p.orgId ∈ recorded

/-- The record of a closed round names the orgs of its accepted contributions, and every version
of the model is of a closed round. -/
structure RecordsComplete (s : Store) : Prop where
  rounds : ∀ k r, s.getRound k = some r → r.status ≠ .running →
    ∃ recorded, recordedOrgs s k = some recorded ∧
      ∀ x, x ∈ recorded ↔ x ∈ (s.acceptedIn k).map (·.orgId)
  versions : ∀ g ∈ s.globalModels.rows, ∃ r, s.getRound g.roundId = some r ∧ r.status ≠ .running

lemma mem_acceptedIn_orgs {s : Store} {k : ℤ} {x : String} :
    x ∈ (s.acceptedIn k).map (·.orgId) ↔
      ∃ c ∈ s.contributions.rows, c.roundId = k ∧ c.accepted = true ∧ c.orgId = x := by
  simp only [Store.acceptedIn, List.mem_map, List.mem_filter, decide_eq_true_eq, and_assoc]

lemma Aggregated.records_all {s : Sys} {user : Option FLUser} {k : ℤ} {env : AggregateEnv}
    {resp : AggregateResponse} {t : World} (done : Aggregated app user k env s.world resp t)
    (h : ExcludesNone app s (.aggregate user k env)) (x : String) :
    x ∈ resp.acceptedOrgs ↔ x ∈ (s.world.store.acceptedIn k).map (·.orgId) := by
  obtain ⟨⟨v, hv, -, hcanonical⟩, -⟩ := schemaGate_spec done.gated
  obtain ⟨c, mb, ev, htr, rfl⟩ := done.scored.mem_survivors.mp hv
  obtain ⟨hall, hsame⟩ := h.merge user k env done.row done.settings rfl done.permitted done.found
    done.running done.window done.trust ⟨c, mb, ev, htr⟩
  rw [done.mem_acceptedOrgs]
  constructor
  · rintro ⟨⟨d, nb, dv, hd, rfl⟩, -⟩
    have hmem := hd.mem.1
    rw [Store.getAcceptedModels, List.mem_map] at hmem
    obtain ⟨r, hr, rfl⟩ := hmem
    rw [Store.acceptedContributions, (List.perm_insertionSort _ _).mem_iff, List.mem_filter,
      decide_eq_true_eq] at hr
    exact mem_acceptedIn_orgs.mpr ⟨r, hr.1, hr.2.1, hr.2.2.1, rfl⟩
  · intro hx
    obtain ⟨d, hd, rfl⟩ := List.mem_map.mp hx
    refine ⟨hall d hd, fun c' mb' ev' htr' _ => ?_⟩
    obtain ⟨a, b, ha, hb, hab⟩ := hsame c' mb' ev' c mb ev htr' htr
    rw [hcanonical] at hb
    obtain rfl := Except.ok.inj hb
    exact ⟨a, ha, hab⟩

lemma acceptedIn_orgs_next {s : Sys} {e : Event} {k : ℤ} {x : String}
    (h : x ∈ ((next app e s).world.store.acceptedIn k).map (·.orgId)) :
    x ∈ (s.world.store.acceptedIn k).map (·.orgId) ∨
      ∃ p env chal n, Accepts app s e p env chal n ∧ p.roundId = k ∧ p.orgId = x := by
  obtain ⟨c, hc, hround, hacc, horg⟩ := mem_acceptedIn_orgs.mp h
  rcases (next_effect _ _ e).contribution hc with hc | hc | ⟨p, env, chal, n, hp, rfl⟩
  · exact Or.inl (mem_acceptedIn_orgs.mpr ⟨c, hc, hround, hacc, horg⟩)
  · rw [hacc] at hc
    cases hc
  · exact Or.inr ⟨p, env, chal, n, hp, hround, horg⟩

lemma acceptedIn_orgs_kept {s : Sys} {e : Event} {k : ℤ} {x : String}
    (h : x ∈ (s.world.store.acceptedIn k).map (·.orgId)) :
    x ∈ ((next app e s).world.store.acceptedIn k).map (·.orgId) := by
  obtain ⟨c, hc, hrest⟩ := mem_acceptedIn_orgs.mp h
  exact mem_acceptedIn_orgs.mpr ⟨c, (next_effect _ _ e).contribution_kept hc, hrest⟩

lemma closed_next (app : App) {s : Sys} (e : Event) {k : ℤ} {r : RoundRow}
    (h : s.world.store.getRound k = some r) (hclosed : r.status ≠ .running) :
    ∃ r', (next app e s).world.store.getRound k = some r' ∧ r'.status ≠ .running ∧
      recordedOrgs (next app e s).world.store k = recordedOrgs s.world.store k := by
  cases (next_effect app s e).roundMove k with
  | kept same => exact ⟨r, same.trans h, hclosed, by rw [recordedOrgs, same]; rfl⟩
  | opened user body env username event fresh new =>
    rw [fresh] at h
    cases h
  | aggregated user env resp event done new =>
    have hfound := done.found
    rw [h] at hfound
    obtain rfl := Option.some.inj hfound
    exact absurd done.running hclosed
  | completed user env event g staged new =>
    rw [h] at new
    refine ⟨_, new, by simp [completedRow], ?_⟩
    rw [recordedOrgs, recordedOrgs, new, h]
    rfl

lemma recordsComplete_next {s : Sys} {e : Event} (h : RecordsComplete s.world.store)
    (hok : ExcludesNone app s e) : RecordsComplete (next app e s).world.store := by
  have heffect := next_effect app s e
  -- a round that was closed before keeps its record, and late uploads are on it
  have hold : ∀ k r, s.world.store.getRound k = some r → r.status ≠ .running →
      ∃ recorded, recordedOrgs (next app e s).world.store k = some recorded ∧
        ∀ x, x ∈ recorded ↔ x ∈ ((next app e s).world.store.acceptedIn k).map (·.orgId) := by
    intro k r hr hclosed
    obtain ⟨recorded, hrec, hiff⟩ := h.rounds k r hr hclosed
    obtain ⟨-, -, -, hsame⟩ := closed_next app e hr hclosed
    refine ⟨recorded, hsame.trans hrec, fun x => ⟨fun hx => ?_, fun hx => ?_⟩⟩
    · exact acceptedIn_orgs_kept ((hiff x).mp hx)
    · rcases acceptedIn_orgs_next hx with hx | ⟨p, env, chal, n, hp, rfl, rfl⟩
      · exact (hiff x).mpr hx
      · obtain ⟨recorded', hrec', hmem⟩ := hok.late p env chal n r hp hr hclosed
        rw [hrec] at hrec'
        obtain rfl := Option.some.inj hrec'
        exact hmem
  refine ⟨fun k r hr hclosed => ?_, fun g hg => ?_⟩
  · cases heffect.roundMove k with
    | kept same => exact hold k r (same.symm.trans hr) hclosed
    | opened user body env username event fresh new =>
      rw [hr] at new
      obtain rfl := Option.some.inj new
      exact absurd rfl hclosed
    | aggregated user env resp event done new =>
      subst event
      refine ⟨resp.acceptedOrgs, ?_, fun x => ?_⟩
      · rw [recordedOrgs, new, done.response.1]
        rfl
      · rw [done.records_all hok]
        refine ⟨acceptedIn_orgs_kept, fun hx => ?_⟩
        rcases acceptedIn_orgs_next hx with hx | ⟨p, env, chal, n, hp, -⟩
        · exact hx
        · obtain ⟨i, hi, -⟩ := hp.event
          cases hi
    | completed user env event g staged new =>
      obtain ⟨hg, hround, -⟩ := Store.getStagedModelForRound_some staged
      obtain ⟨r', hr', hclosed'⟩ := h.versions g (Table.get?_mem hg)
      rw [hround] at hr'
      exact hold k r' hr' hclosed'
  · rcases heffect.version hg with ⟨g', hg', hround⟩ | ⟨user, env, resp, -, ⟨done⟩⟩
    · obtain ⟨r, hr, hclosed⟩ := h.versions g' hg'
      rw [hround] at hr
      obtain ⟨r', hr', hclosed', -⟩ := closed_next app e hr hclosed
      exact ⟨r', hr', hclosed'⟩
    · exact ⟨_, done.getRound, by simp [aggregatedRow]⟩

/-- In a run whose steps exclude no org, every served model is signed with the list that its
aggregation recorded. -/
theorem signed_lists_agree {es : List Event} (h : ∀ p ∈ steps app es, ExcludesNone app p.1 p.2) :
    ∀ pre post, es = pre ++ post → SignedListsAgree app (after app pre).world := by
  rintro pre post rfl
  have hinv : RecordsComplete (after app pre).world.store := by
    refine run_invariant (next app) (I := fun s => RecordsComplete s.world.store)
      (A := ExcludesNone app) (fun s e => recordsComplete_next) ?_ pre fun p hp => h p ?_
    · refine ⟨fun k r hr => ?_, by simp [init, Store.empty]⟩
      cases (show (none : Option RoundRow) = some r from hr)
    · rw [steps, visits_append]
      exact List.mem_append_left _ hp
  refine ⟨fun req roundId env m hm => ?_, fun req env m version hm => ?_⟩
  · obtain ⟨⟨r, hr, hst⟩, bytes, -, hcarries⟩ := getRoundGlobalModel_ok hm
    obtain ⟨recorded, hrec, hmem⟩ := hinv.rounds roundId r hr (by rw [hst]; decide)
    obtain ⟨ids, hids, hiff⟩ := hcarries.orgs
    obtain rfl := hcarries.round
    exact ⟨rfl, ids, recorded, hids, hrec, fun x => (hiff x).trans (hmem x).symm⟩
  · obtain ⟨g, bytes, hg, -, -, hcarries⟩ := getActiveGlobalModel_ok hm
    obtain ⟨r, hr, hclosed⟩ := hinv.versions g (Table.get?_mem hg)
    obtain ⟨recorded, hrec, hmem⟩ := hinv.rounds g.roundId r hr hclosed
    obtain ⟨ids, hids, hiff⟩ := hcarries.orgs
    exact ⟨ids, recorded, hids, hcarries.round ▸ hrec, fun x => (hiff x).trans (hmem x).symm⟩

/-- The model of the second org is rejected, the round published. -/
def rejectedUpload : List Event := twoUploads ++ [Sample.aggregate firstOnly, Sample.publish]

/-- The signed list names the org that was rejected. -/
theorem rejected_org_signed :
    ¬∀ pre post, rejectedUpload = pre ++ post →
      SignedListsAgree Sample.app (after Sample.app pre).world := by
  intro h
  have hagree := (h rejectedUpload [] rfl).ofRound (Sample.present (Sample.certOf "x" [1] 11)) 1
    { authAt := 400, distributedAt := "1970-01-01T00:06:40+00:00" }
  have hserved : (getRoundGlobalModel Sample.app (Sample.present (Sample.certOf "x" [1] 11)) 1
      { authAt := 400, distributedAt := "1970-01-01T00:06:40+00:00" }
      (after Sample.app rejectedUpload).world).1.toOption.map
        (fun m => readOrgs "accepted_orgs" m.signedAttestation) = some (some ["x", "y"]) := by
    decide +kernel
  have hrecorded : recordedOrgs (after Sample.app rejectedUpload).world.store 1 = some ["x"] := by
    decide +kernel
  cases hres : (getRoundGlobalModel Sample.app (Sample.present (Sample.certOf "x" [1] 11)) 1
      { authAt := 400, distributedAt := "1970-01-01T00:06:40+00:00" }
      (after Sample.app rejectedUpload).world).1 with
  | error e =>
    rw [hres] at hserved
    cases hserved
  | ok m =>
    rw [hres] at hserved
    obtain ⟨hround, ids, recorded, hids, hrec, hiff⟩ := hagree m hres
    rw [hround, hrecorded] at hrec
    obtain rfl := Option.some.inj hrec
    obtain rfl := Option.some.inj (hids.symm.trans (Option.some.inj hserved))
    exact absurd ((hiff "y").mp (by simp)) (by decide)

/-- An upload waits to be recorded. -/
def waitingUpload : List Event :=
  [Sample.enroll "x" [1] 11, Sample.start none, Sample.challenge "a" (Sample.certOf "x" [1] 11),
    Sample.contribute "x" "a" [1] 11 Sample.model]

/-- The upload is recorded, and its model published. -/
def publishedUpload : List Event :=
  waitingUpload ++ [Sample.resume, Sample.aggregate (fun _ => .scored 1), Sample.publish]

lemma excludesNone_of {s : Sys} {e : Event} (hagg : ∀ user k env, e ≠ .aggregate user k env)
    (hres : ∀ i env, e ≠ .resume i env) : ExcludesNone app s e where
  merge := fun user k env r settings he => absurd he (hagg user k env)
  late := fun p env chal n r hp => by
    obtain ⟨i, he, -⟩ := hp.event
    exact absurd he (hres i env)

lemma publishedUpload_models :
    ∃ c, (after Sample.app (waitingUpload ++ [Sample.resume])).world.store.getAcceptedModels 1 = [c] ∧
      c.orgId = "x" ∧ c.numExamples = 1 ∧
      (after Sample.app (waitingUpload ++ [Sample.resume])).world.files c.modelPath =
          some Sample.model := by
  have hmodels : ((after Sample.app (waitingUpload ++ [Sample.resume])).world.store.getAcceptedModels 1).map
      (fun c => (c.orgId, c.numExamples,
        (after Sample.app (waitingUpload ++ [Sample.resume])).world.files c.modelPath)) =
      [("x", 1, some Sample.model)] := by decide +kernel
  obtain ⟨c, rest, hcons, hc, hrest⟩ := List.map_eq_cons_iff.mp hmodels
  obtain rfl := List.map_eq_nil_iff.mp hrest
  simp only [Prod.mk.injEq] at hc
  exact ⟨c, hcons, hc⟩

lemma excludesNone_aggregate :
    ExcludesNone Sample.app (after Sample.app (waitingUpload ++ [Sample.resume]))
      (Sample.aggregate (fun _ => .scored 1)) := by
  obtain ⟨c, hcons, horg, hcount, hfile⟩ := publishedUpload_models
  have hacc : ((Sample.app.trustManager { validationData := true, maxNumExamples := 1000000 }).evaluate
      (after Sample.app (waitingUpload ++ [Sample.resume])).world.store "x"
      ((Sample.aggregateEnv fun _ => .scored 1).score.judge 0 Sample.model) 1
      ((Sample.aggregateEnv fun _ => .scored 1).score.scoredAt 0)).1.accepted = true := by
    decide +kernel
  have hschema : SameSchema Sample.app Sample.model Sample.model := by
    have hself : (modelFeatureSchema Sample.app.python Sample.model).toOption.any
        (fun a => a.same a) = true := by
      decide +kernel
    cases hm : modelFeatureSchema Sample.app.python Sample.model with
    | error e =>
      rw [hm] at hself
      cases hself
    | ok a =>
      rw [hm] at hself
      exact ⟨a, a, hm, hm, hself⟩
  refine ⟨fun user k env r settings he _ _ _ _ hsettings _ => ?_, fun p env chal n r hp => ?_⟩
  · obtain ⟨-, rfl, rfl⟩ := Event.aggregate.inj he
    obtain rfl := Option.some.inj hsettings
    refine ⟨fun d hd => ?_, fun c' mb ev c'' nb ev' h h' => ?_⟩
    · have hx := (getAcceptedModels_orgs Sample.app (waitingUpload ++ [Sample.resume]) 1).mem_iff.mpr
        (List.mem_map_of_mem hd)
      rw [hcons] at hx
      have htrusted : ∃ ev, TrustedIn Sample.app
          { validationData := true, maxNumExamples := 1000000 } 1
          (Sample.aggregateEnv fun _ => .scored 1)
          (after Sample.app (waitingUpload ++ [Sample.resume])).world c Sample.model ev := by
        simp only [TrustedIn, hcons]
        refine ⟨_, .here hfile Prod.mk.eta.symm ?_⟩
        rw [horg, hcount]
        exact hacc
      obtain ⟨ev, htrusted⟩ := htrusted
      exact ⟨c, Sample.model, ev, htrusted, (List.mem_singleton.mp hx).symm⟩
    · have hmodel : ∀ {c' mb ev}, TrustedIn Sample.app
        { validationData := true, maxNumExamples := 1000000 } 1
          (Sample.aggregateEnv fun _ => .scored 1)
          (after Sample.app (waitingUpload ++ [Sample.resume])).world c' mb ev → mb = Sample.model := by
        intro c' mb ev h
        obtain ⟨hmem, hmb, -⟩ := h.mem
        rw [hcons, List.mem_singleton] at hmem
        rw [hmem, hfile] at hmb
        exact (Option.some.inj hmb).symm
      rw [hmodel h, hmodel h']
      exact hschema
  · obtain ⟨i, he, -⟩ := hp.event
    cases he

lemma excludesNone_resume :
    ExcludesNone Sample.app (after Sample.app waitingUpload) Sample.resume := by
  refine ⟨fun user k env r settings he => (by cases he), fun p env chal n r hp hr hclosed => ?_⟩
  have hinFlight : (after Sample.app waitingUpload).inFlight.map (·.roundId) = [1] := by
    decide +kernel
  have hrunning : ((after Sample.app waitingUpload).world.store.getRound 1).map (·.status) =
      some .running := by decide +kernel
  have hround : p.roundId ∈ [(1 : ℤ)] := by
    rw [← hinFlight]
    exact List.mem_map_of_mem (mem_inFlight_of_accepts hp)
  rw [List.mem_singleton.mp hround] at hr
  rw [hr] at hrunning
  exact absurd (Option.some.inj hrunning) hclosed

theorem signed_lists_agree_publishedUpload :
    SignedListsAgree Sample.app (after Sample.app publishedUpload).world := by
  refine signed_lists_agree (fun p hp => ?_) publishedUpload [] (List.append_nil _).symm
  rw [steps, publishedUpload, visits_append, List.mem_append] at hp
  rcases hp with hp | hp
  · simp only [waitingUpload, visits, List.mem_cons, List.not_mem_nil, or_false] at hp
    rcases hp with rfl | rfl | rfl | rfl
    · exact excludesNone_of (by simp [Sample.enroll]) (by simp [Sample.enroll])
    · exact excludesNone_of (by simp [Sample.start]) (by simp [Sample.start])
    · exact excludesNone_of (by simp [Sample.challenge]) (by simp [Sample.challenge])
    · exact excludesNone_of (by simp [Sample.contribute]) (by simp [Sample.contribute])
  · rw [← after] at hp
    simp only [visits, List.mem_cons, List.not_mem_nil, or_false] at hp
    rcases hp with rfl | rfl | rfl
    · dsimp only
      exact excludesNone_resume
    · dsimp only
      rw [← after_concat]
      exact excludesNone_aggregate
    · exact excludesNone_of (by simp [Sample.publish]) (by simp [Sample.publish])

end Served

end FlCoordinator
