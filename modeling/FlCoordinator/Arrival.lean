import FlCoordinator.Lib.StableSort
import FlCoordinator.Scoring

/-!
# The order of arrival

Two aggregations of one round that find its accepted contributions in different orders. Where each
org has one contribution, a verdict does not depend on the others, and the stable sort by weight
undoes the order except among equal weights.
-/

namespace FlCoordinator

open Lib

/-! ### Scoring one contribution at a time -/

section Loop

variable (tm : TrustManager) (env : ScoreEnv) (files : String → Option Bytes) (ρ : Reputations)

/-- The result of a contribution, from the reputation of its org. -/
def resultOf (c : Store.AcceptedModel) : ContributorResult :=
  match files c.modelPath with
  | none => missingResult c
  | some mb =>
    scoredResult c (tm.assess ((ρ c.orgId).getD .unknown) (env.judge 0 mb) c.numExamples).1

/-- The reputation that it leaves its org. -/
def settledOf (c : Store.AcceptedModel) : Option Reputation :=
  match files c.modelPath with
  | none => ρ c.orgId
  | some mb => (ρ c.orgId).map (fun p => (tm.assess p (env.judge 0 mb) c.numExamples).2)

/-- The verdict on given bytes does not depend on their position. -/
def ByBytes (env : ScoreEnv) : Prop := ∀ i j mb, env.judge i mb = env.judge j mb

variable {tm env files ρ} {app : App} {k : ℤ}

lemma resultOf_congr {ρ' : Reputations} {c : Store.AcceptedModel} (h : ρ' c.orgId = ρ c.orgId) :
    resultOf tm env files ρ' c = resultOf tm env files ρ c := by
  rw [resultOf, resultOf, h]

lemma settledOf_congr {ρ' : Reputations} {c : Store.AcceptedModel} (h : ρ' c.orgId = ρ c.orgId) :
    settledOf tm env files ρ' c = settledOf tm env files ρ c := by
  rw [settledOf, settledOf, h]

lemma tallyUp_results (hbytes : ByBytes env) {i : ℕ} {cs : List Store.AcceptedModel}
    (hone : (cs.map (·.orgId)).Nodup) :
    (tallyUp tm env files app k i cs ρ).results = cs.map (resultOf tm env files ρ) := by
  induction cs generalizing i ρ with
  | nil => rfl
  | cons c cs ih =>
    obtain ⟨hc, hcs⟩ := List.nodup_cons.mp hone
    rw [tallyUp, List.map_cons]
    cases hfile : files c.modelPath with
    | none =>
      dsimp only
      rw [ih hcs, resultOf, hfile]
    | some mb =>
      dsimp only
      rw [ih hcs]
      refine congrArg₂ List.cons ?_ (List.map_congr_left fun d hd => ?_)
      · rw [resultOf, hfile, hbytes i 0]
      · apply resultOf_congr
        apply reassess_of_ne
        intro heq
        exact hc (List.mem_map.mpr ⟨d, hd, heq.symm⟩)

lemma rescore_of_mem (hbytes : ByBytes env) {i : ℕ} {cs : List Store.AcceptedModel}
    (hone : (cs.map (·.orgId)).Nodup) {c : Store.AcceptedModel} (hc : c ∈ cs) :
    rescore tm env files i cs ρ c.orgId = settledOf tm env files ρ c := by
  induction cs generalizing i ρ with
  | nil => cases hc
  | cons d cs ih =>
    obtain ⟨hd, hcs⟩ := List.nodup_cons.mp hone
    rw [rescore]
    rcases List.mem_cons.mp hc with rfl | hmem
    · cases hfile : files c.modelPath with
      | none =>
        dsimp only
        rw [rescore_of_notMem hd, settledOf, hfile]
      | some mb =>
        dsimp only
        rw [rescore_of_notMem hd, reassess, if_pos rfl, settledOf, hfile, hbytes i 0]
    · have hne : d.orgId ≠ c.orgId := fun heq => hd (List.mem_map.mpr ⟨c, hmem, heq.symm⟩)
      cases files d.modelPath with
      | none => exact ih hcs hmem
      | some mb => exact (ih hcs hmem).trans (settledOf_congr (reassess_of_ne hne))

/-- The reputations after a scoring do not depend on the order of the contributions. -/
theorem rescore_perm (hbytes : ByBytes env) {i : ℕ} {cs cs' : List Store.AcceptedModel}
    (hone : (cs.map (·.orgId)).Nodup) (hperm : cs.Perm cs') :
    rescore tm env files i cs ρ = rescore tm env files i cs' ρ := by
  have hone' : (cs'.map (·.orgId)).Nodup := (hperm.map _).nodup_iff.mp hone
  funext x
  by_cases hx : x ∈ cs.map (·.orgId)
  · obtain ⟨c, hc, rfl⟩ := List.mem_map.mp hx
    rw [rescore_of_mem hbytes hone hc, rescore_of_mem hbytes hone' (hperm.mem_iff.mp hc)]
  · rw [rescore_of_notMem hx, rescore_of_notMem]
    rwa [← (hperm.map _).mem_iff]

end Loop

/-! ### The gate on one result at a time -/

section Gate

variable (py : Python)

/-- The gate treats the results one by one, and what it does to each depends on the survivors. -/
lemma gateLoop_factors (canonical : Schema) (vs : List Survivor) (weighted : List (Bytes × ℚ))
    (excluded : List String) :
    ∃ r : Except PyErr (List (Bytes × ℚ) × List String × (ContributorResult → ContributorResult)),
      ∀ results, gateLoop py canonical vs ⟨weighted, results, excluded⟩ =
        r.map (fun p => ⟨p.1, results.map p.2.2, p.2.1⟩) := by
  induction vs generalizing weighted excluded with
  | nil =>
    refine ⟨.ok (weighted, excluded, id), fun results => ?_⟩
    rw [gateLoop, Except.map, List.map_id]
  | cons v vs ih =>
    cases hschema : modelFeatureSchema py v.modelBytes with
    | error e =>
      refine ⟨.error e, fun results => ?_⟩
      rw [gateLoop, hschema]
      rfl
    | ok schema =>
      by_cases hsame : schema.same canonical = true
      · obtain ⟨r, hr⟩ := ih (weighted ++ [(v.modelBytes, v.weight)]) excluded
        refine ⟨r, fun results => ?_⟩
        rw [← hr, gateLoop, hschema]
        simp only [bind, Except.bind, if_pos hsame]
      · cases hexpected : describeSchema canonical with
        | error e =>
          refine ⟨.error e, fun results => ?_⟩
          rw [gateLoop, hschema]
          simp only [bind, Except.bind, if_neg hsame, hexpected]
          rfl
        | ok expected =>
          cases hgot : describeSchema schema with
          | error e =>
            refine ⟨.error e, fun results => ?_⟩
            rw [gateLoop, hschema]
            simp only [bind, Except.bind, if_neg hsame, hexpected, hgot]
            rfl
          | ok got =>
            obtain ⟨r, hr⟩ := ih weighted (excluded ++ [v.orgId])
            refine ⟨r.map (fun p => (p.1, p.2.1, fun x => p.2.2 (if x.orgId = v.orgId then
              { x with
                accepted := false
                reason := s!"feature-schema mismatch (expected {expected}, got {got})" }
              else x))), fun results => ?_⟩
            rw [gateLoop, hschema]
            simp only [bind, Except.bind, if_neg hsame, hexpected, hgot, demote, hr]
            cases r with
            | error e => rfl
            | ok p => simp only [Except.map, List.map_map, Function.comp_def]

/-- What the survivors in their order make of the results: the failure, or the merged model and
the change of each result. -/
lemma combine_factors (vs : List Survivor) :
    ∃ r : Except Failure (List (Bytes × ℚ) × List String ×
        (ContributorResult → ContributorResult) × Bytes × MergeInfo),
      ∀ tally : Tally, sortSurvivors tally.survivors = vs → combine py tally =
        r.map (fun p => (⟨p.1, tally.results.map p.2.2.1, p.2.1⟩, p.2.2.2)) := by
  cases vs with
  | nil =>
    refine ⟨.error noSurvivors, fun tally h => ?_⟩
    have hempty : tally.survivors.isEmpty = true := by
      rw [List.isEmpty_iff]
      exact (List.Perm.nil_eq (h ▸ List.perm_insertionSort _ _)).symm
    rw [combine, if_pos hempty]
    rfl
  | cons v vs =>
    have hsome : ∀ tally : Tally, sortSurvivors tally.survivors = v :: vs →
        ¬tally.survivors.isEmpty = true := by
      intro tally h hempty
      rw [List.isEmpty_iff.mp hempty] at h
      cases h
    cases hschema : modelFeatureSchema py v.modelBytes with
    | error e =>
      refine ⟨.error (.uncaught e), fun tally h => ?_⟩
      rw [combine, if_neg (hsome tally h), schemaGate, h]
      simp only [hschema]
      rfl
    | ok canonical =>
      obtain ⟨r, hr⟩ := gateLoop_factors py canonical (v :: vs) [] []
      have hgate : ∀ tally : Tally, sortSurvivors tally.survivors = v :: vs →
          schemaGate py tally =
            r.map (fun p => (canonical, ⟨p.1, tally.results.map p.2.2, p.2.1⟩)) := by
        intro tally h
        rw [schemaGate, h]
        simp only [hschema, bind, Except.bind, hr]
        cases r <;> rfl
      cases r with
      | error e =>
        refine ⟨.error (.uncaught e), fun tally h => ?_⟩
        rw [combine, if_neg (hsome tally h), hgate tally h]
        rfl
      | ok p =>
        obtain ⟨weighted, excluded, change⟩ := p
        cases hshown : (if excluded = [] then .ok "" else describeSchema canonical :
            Except PyErr String) with
        | error e =>
          refine ⟨.error (.uncaught e), fun tally h => ?_⟩
          rw [combine, if_neg (hsome tally h), hgate tally h]
          simp only [Except.map, hshown]
        | ok shown =>
          cases hmerge : mergeXgboostModels py weighted with
          | error e =>
            refine ⟨.error (.uncaught e), fun tally h => ?_⟩
            rw [combine, if_neg (hsome tally h), hgate tally h]
            simp only [Except.map, hshown, hmerge]
          | ok out =>
            refine ⟨.ok (weighted, excluded, change, out), fun tally h => ?_⟩
            rw [combine, if_neg (hsome tally h), hgate tally h]
            simp only [Except.map, hshown, hmerge]

end Gate

/-! ### Two aggregations -/

section Arrival

variable {app : App} {user : Option FLUser} {k : ℤ} {env : AggregateEnv} {w w' t t' : World}

/-- The worlds differ in the order in which the accepted contributions of the round have arrived,
one of each org. -/
structure Reordered (k : ℤ) (w w' : World) : Prop where
  rounds : w.store.rounds = w'.store.rounds
  orgs : w.store.orgs = w'.store.orgs
  files : w.files = w'.files
  accepted : (w.store.getAcceptedModels k).Perm (w'.store.getAcceptedModels k)
  one : ((w.store.getAcceptedModels k).map (·.orgId)).Nodup

/-- Among the trusted contributions, those of equal weight have arrived in the same order. -/
def TiesInOrder (app : App) (k : ℤ) (env : AggregateEnv) (w w' : World) : Prop :=
  ∀ q, (trustedIn app k env w).filter (fun v => v.weight = q) =
    (trustedIn app k env w').filter (fun v => v.weight = q)

/-- The version of a response and the bytes of its file. -/
def StagedBytes (k : ℤ) (resp : AggregateResponse) (t : World) (bytes : Bytes) : Prop :=
  ∃ g, t.store.getGlobalModel resp.versionId = some g ∧ g.roundId = k ∧ g.status = .staged ∧
    t.files g.modelPath = some bytes

/-- Both calls fail with the same exception, or both stage the same bytes and accept the same
orgs. -/
inductive SameOutcome (k : ℤ) (t t' : World) :
    Except Failure AggregateResponse → Except Failure AggregateResponse → Prop
  | failed (e : Failure) : SameOutcome k t t' (.error e) (.error e)
  | staged (resp resp' : AggregateResponse) (bytes : Bytes) (first : StagedBytes k resp t bytes)
      (second : StagedBytes k resp' t' bytes)
      (hash : resp.globalModelSha256 = resp'.globalModelSha256)
      (accepted : resp.acceptedOrgs.Perm resp'.acceptedOrgs) :
      SameOutcome k t t' (.ok resp) (.ok resp')

lemma sortSurvivors_congr {vs vs' : List Survivor}
    (h : ∀ q, vs.filter (fun v => v.weight = q) = vs'.filter (fun v => v.weight = q)) :
    sortSurvivors vs = sortSurvivors vs' := sortDescending_congr h

namespace Reordered

lemma reputation (h : Reordered k w w') : w.store.reputation = w'.store.reputation := by
  funext x
  rw [Store.reputation, Store.reputation, Store.getOrg, Store.getOrg, h.orgs]

lemma check (h : Reordered k w w') :
    (dueRound app k env user w).1 = (dueRound app k env user w').1 :=
  dueRound_readsOnly.congr h.rounds

lemma combine (h : Reordered k w w') (hbytes : ByBytes env.score)
    (hties : TiesInOrder app k env w w') {settings : TrustSettings}
    (htrust : app.trust = some settings)
    {tally tally' : Tally} {v v' : World}
    (hs : Scored app (app.trustManager settings) k env.score 0 (w.store.getAcceptedModels k) w tally v)
    (hs' : Scored app (app.trustManager settings) k env.score 0 (w'.store.getAcceptedModels k) w'
      tally' v') :
    ∃ r : Except Failure (List (Bytes × ℚ) × List String ×
        (ContributorResult → ContributorResult) × Bytes × MergeInfo),
      combine app.python tally = r.map (fun p => (⟨p.1, tally.results.map p.2.2.1, p.2.1⟩, p.2.2.2)) ∧
      combine app.python tally' =
        r.map (fun p => (⟨p.1, tally'.results.map p.2.2.1, p.2.1⟩, p.2.2.2)) ∧
      tally.results.Perm tally'.results ∧ v.store.reputation = v'.store.reputation := by
  have hone' : ((w'.store.getAcceptedModels k).map (·.orgId)).Nodup :=
    (h.accepted.map _).nodup_iff.mp h.one
  obtain ⟨hrep, htally⟩ := hs.onReputations
  obtain ⟨hrep', htally'⟩ := hs'.onReputations
  rw [← h.reputation, ← h.files] at hrep' htally'
  have hsort : sortSurvivors tally'.survivors = sortSurvivors tally.survivors := by
    rw [trustedIn_eq htrust hs, trustedIn_eq htrust hs']
    exact (sortSurvivors_congr hties).symm
  obtain ⟨r, hr⟩ := combine_factors app.python (sortSurvivors tally.survivors)
  refine ⟨r, hr tally rfl, hr tally' hsort, ?_, ?_⟩
  · rw [htally, htally', tallyUp_results hbytes h.one, tallyUp_results hbytes hone']
    exact h.accepted.map _
  · rw [hrep, hrep', rescore_perm hbytes h.one h.accepted]

end Reordered

lemma stagedBytes_of_concluded {r : RoundRow} {responded : ℕ} {gate : Gate} {bytes : Bytes}
    {info : MergeInfo} {v : World} {resp : AggregateResponse}
    (h : Concluded app k env r responded gate bytes info v resp t) : StagedBytes k resp t bytes := by
  refine ⟨stagedVersion app r k gate bytes info env resp.versionId, ?_, rfl, rfl, ?_⟩
  · rw [h.store, h.version]
    exact getGlobalModel_stagedStore _ _ _ _ _ _ _ _
  · rw [h.files]
    exact Function.update_self _ _ _

/-- Where verdicts depend on the bytes only, an aggregation does not depend on the order in which
the contributions have arrived, but for those that end with equal weights: it fails with the same
exception or stages the same bytes, accepts the same orgs, and leaves all orgs the same trust and
last accuracy. -/
theorem arrival_order (hbytes : ByBytes env.score) (h : Reordered k w w')
    (hties : TiesInOrder app k env w w') :
    SameOutcome k (aggregateRound app user k env w).2 (aggregateRound app user k env w').2
        (aggregateRound app user k env w).1 (aggregateRound app user k env w').1 ∧
      (aggregateRound app user k env w).2.store.reputation =
        (aggregateRound app user k env w').2.store.reputation := by
  have hrun := aggregateRound_run app user k env w
  have hrun' := aggregateRound_run app user k env w'
  generalize (aggregateRound app user k env w).1 = res at hrun ⊢
  generalize (aggregateRound app user k env w).2 = t at hrun ⊢
  generalize (aggregateRound app user k env w').1 = res' at hrun' ⊢
  generalize (aggregateRound app user k env w').2 = t' at hrun' ⊢
  cases hdue : (dueRound app k env user w).1 with
  | error e =>
    obtain ⟨rfl, rfl⟩ := hrun.of_refused hdue
    obtain ⟨rfl, rfl⟩ := hrun'.of_refused (h.check.symm.trans hdue)
    exact ⟨.failed e, h.reputation⟩
  | ok p =>
    obtain ⟨u, r, settings⟩ := p
    have hdue' : (dueRound app k env user w').1 = .ok (u, r, settings) := h.check.symm.trans hdue
    by_cases hnil : w.store.getAcceptedModels k = []
    · have hnil' : w'.store.getAcceptedModels k = [] := List.Perm.eq_nil (hnil ▸ h.accepted.symm)
      obtain ⟨rfl, rfl⟩ := hrun.of_empty hdue hnil
      obtain ⟨rfl, rfl⟩ := hrun'.of_empty hdue' hnil'
      exact ⟨.failed noContributions, h.reputation⟩
    · have hsome' : w'.store.getAcceptedModels k ≠ [] := fun hnil' =>
        hnil (List.Perm.eq_nil (hnil' ▸ h.accepted))
      obtain ⟨-, -, htrust⟩ := due_of_dueRound hdue
      obtain ⟨tally, v, scored, hend⟩ := hrun.of_scored hdue hnil
      obtain ⟨tally', v', scored', hend'⟩ := hrun'.of_scored hdue' hsome'
      obtain ⟨out, hout, hout', hperm, hrep⟩ := h.combine hbytes hties htrust scored scored'
      rw [hout] at hend
      rw [hout'] at hend'
      cases out with
      | error d =>
        rcases hend with ⟨e, he, rfl, left⟩ | ⟨gate, bytes, info, resp, hok, -⟩
        · rcases hend' with ⟨e', he', rfl, left'⟩ | ⟨gate', bytes', info', resp', hok', -⟩
          · cases he
            cases he'
            exact ⟨.failed d, by rw [left.store, left'.store, hrep]⟩
          · cases hok'
        · cases hok
      | ok p =>
        obtain ⟨weighted, excluded, change, merged⟩ := p
        rcases hend with ⟨e, he, -⟩ | ⟨gate, bytes, info, resp, hok, rfl, done⟩
        · cases he
        · rcases hend' with ⟨e', he', -⟩ | ⟨gate', bytes', info', resp', hok', rfl, done'⟩
          · cases he'
          · cases hok
            cases hok'
            refine ⟨.staged resp resp' bytes (stagedBytes_of_concluded done)
              (stagedBytes_of_concluded done') ?_ ?_, ?_⟩
            · rw [done.hash, done'.hash]
            · rw [done.accepted, done'.accepted]
              exact ((hperm.map _).filter _).map _
            · rw [done.store, done'.store, reputation_stagedStore, reputation_stagedStore, hrep]

lemma tiesInOrder_of_distinct (hperm : (trustedIn app k env w).Perm (trustedIn app k env w'))
    (hdistinct : ((trustedIn app k env w).map (·.weight)).Nodup) : TiesInOrder app k env w w' := by
  intro q
  have hsame := hperm.filter (fun v => v.weight = q)
  have hall : ((trustedIn app k env w).filter (fun v => v.weight = q)).map (·.weight) =
      List.replicate ((trustedIn app k env w).filter (fun v => v.weight = q)).length q := by
    rw [List.map_eq_replicate_iff]
    intro v hv
    simpa using (List.mem_filter.mp hv).2
  have hfew : (((trustedIn app k env w).filter (fun v => v.weight = q)).map (·.weight)).Nodup :=
    hdistinct.sublist (List.filter_sublist.map _)
  rw [hall, List.nodup_replicate] at hfew
  cases hcases : (trustedIn app k env w).filter (fun v => v.weight = q) with
  | nil =>
    rw [hcases] at hsame
    exact hsame.nil_eq
  | cons v rest =>
    rw [hcases, List.length_cons] at hfew
    obtain rfl : rest = [] := List.length_eq_zero_iff.mp (by omega)
    rw [hcases] at hsame
    exact hsame.symm.eq_singleton.symm

/-- The verdict on a model looks at its bytes. -/
def byModel (mb : Bytes) : Judgement :=
  if mb = Sample.model then .scored 1 else .unscored "labels"

def byModelEnv : AggregateEnv :=
  { Sample.aggregateEnv (fun _ => .scored 1) with
    score :=
      { judge := fun _ => byModel
        scoredAt := fun _ => 200
        issuedAt := fun _ => "1970-01-01T00:03:20+00:00" } }

/-- The same contributions, where the first one has arrived last. -/
def firstLast (w : World) : World :=
  w.setStore { w.store with contributions :=
    w.store.contributions.update 1 (fun c => { c with receivedAt := 150 }) fun _ => rfl }

lemma reordered_firstLast
    (hperm : (w.store.getAcceptedModels 1).reverse = (firstLast w).store.getAcceptedModels 1)
    (hone : ((w.store.getAcceptedModels 1).map (·.orgId)).Nodup) : Reordered 1 w (firstLast w) :=
  ⟨rfl, rfl, rfl, hperm ▸ (List.reverse_perm _).symm, hone⟩

/-- Org y has trained on twice as many examples. -/
def unequalUploads : List Event :=
  [Sample.enroll "x" [1] 11, Sample.enroll "y" [2] 12, Sample.start none,
    Sample.challenge "a" (Sample.certOf "x" [1] 11), Sample.challenge "b" (Sample.certOf "y" [2] 12),
    Sample.contribute "x" "a" [1] 11 Sample.model, Sample.contribute "y" "b" [2] 12 Sample.model "2",
    Sample.resume, Sample.resume]

theorem arrival_order_unequal :
    SameOutcome 1
      (aggregateRound Sample.app (some Sample.admin) 1 byModelEnv
        (after Sample.app unequalUploads).world).2
      (aggregateRound Sample.app (some Sample.admin) 1 byModelEnv
        (firstLast (after Sample.app unequalUploads).world)).2
      (aggregateRound Sample.app (some Sample.admin) 1 byModelEnv
        (after Sample.app unequalUploads).world).1
      (aggregateRound Sample.app (some Sample.admin) 1 byModelEnv
        (firstLast (after Sample.app unequalUploads).world)).1 ∧
    (aggregateRound Sample.app (some Sample.admin) 1 byModelEnv
        (after Sample.app unequalUploads).world).2.store.reputation =
      (aggregateRound Sample.app (some Sample.admin) 1 byModelEnv
        (firstLast (after Sample.app unequalUploads).world)).2.store.reputation := by
  have hfirst : ((after Sample.app unequalUploads).world.store.getAcceptedModels 1).map (·.orgId) =
      ["x", "y"] := by decide +kernel
  have hperm : ((after Sample.app unequalUploads).world.store.getAcceptedModels 1).reverse =
      (firstLast (after Sample.app unequalUploads).world).store.getAcceptedModels 1 := by
    decide +kernel
  have hswapped : trustedIn Sample.app 1 byModelEnv
      (firstLast (after Sample.app unequalUploads).world) =
      (trustedIn Sample.app 1 byModelEnv (after Sample.app unequalUploads).world).reverse := by
    decide +kernel
  have hweights : (trustedIn Sample.app 1 byModelEnv (after Sample.app unequalUploads).world).map
      (·.weight) = [1, 2] := by decide +kernel
  apply arrival_order
  · intro i j mb
    rfl
  · apply reordered_firstLast hperm
    rw [hfirst]
    decide
  · apply tiesInOrder_of_distinct
    · rw [hswapped]
      exact (List.reverse_perm _).symm
    · rw [hweights]
      decide +kernel

end Arrival

end FlCoordinator
