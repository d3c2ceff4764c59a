import FlCoordinator.Discovery
import FlCoordinator.Provenance
import FlCoordinator.Scoring

/-!
# Who takes part in a global model

The required number of clients is compared with the invitations when a round is started, and the
status of an org with its uploads. Neither is looked at when the round is aggregated.
-/

namespace FlCoordinator

open Lib Handler

/-! ### The required number of clients -/

section MinClients

variable {app : App} {es : List Event}

lemma started_of_fresh {s : Sys} {user : Option FLUser} {body : StartRoundRequest}
    {env : StartRoundEnv} {k : ℤ} (hfresh : s.world.store.getRound k = none)
    (hsome : ((next app (.startRound user body env) s).world.store.getRound k).isSome) :
    Started app body env s.world.store (next app (.startRound user body env) s).world.store := by
  cases next_effect app s (.startRound user body env) with
  | idle store crl =>
    rw [store, hfresh] at hsome
    cases hsome
  | start done crl => exact done

lemma invitedOrgs_nodup (s : Store) (targets : Option (List String)) :
    ((invitedOrgs s targets).map (·.orgId)).Nodup := by
  have hall : (s.listOrgs.map (·.orgId)).Nodup :=
    (((List.perm_insertionSort _ _).map _).nodup_iff).mpr s.orgs.nodup
  have hactive : ((s.listOrgs.filter (fun o => o.status = .active)).map (·.orgId)).Nodup :=
    hall.sublist (List.filter_sublist.map _)
  unfold invitedOrgs
  rcases targets with _ | _ | ⟨t, ts⟩
  · exact hactive
  · exact hactive
  · exact hactive.sublist (List.filter_sublist.map _)

/-- The round with another required number of clients. -/
def RoundRow.requiring (f : ℤ → ℤ) (r : RoundRow) : RoundRow :=
  { r with params := { r.params with minClients := f r.roundId } }

/-- The world with other required numbers of clients in its rounds. -/
def World.requiring (f : ℤ → ℤ) (w : World) : World :=
  w.setStore { w.store with rounds := w.store.rounds.updateAll (RoundRow.requiring f) fun _ => rfl }

/-- The handler answers the same whatever numbers of clients the rounds require, and leaves these
numbers as they are. -/
def Unrequired {α : Type} (m : Api α) : Prop :=
  ∀ (f : ℤ → ℤ) w, m (w.requiring f) = ((m w).1, (m w).2.requiring f)

/-- What `min_clients` guarantees: the invitations at the start of the round. -/
structure MinClients (app : App) (es : List Event) : Prop where
  invited : ∀ k r, (after app es).world.store.getRound k = some r →
    ∃ before user body env between, es = before ++ .startRound user body env :: between ∧
      (after app before).world.store.getRound k = none ∧
      r.params = body.params app.observationHours ∧
      ∃ orgs : List String, orgs.Nodup ∧ r.params.minClients ≤ orgs.length ∧ ∀ x ∈ orgs,
        (∃ row, (after app before).world.store.getOrg x = some row ∧ row.status = .active) ∧
          Targeted r.params.targetOrgIds x
  merged : ∀ pre user k env post resp, es = pre ++ .aggregate user k env :: post →
    (aggregateRound app user k env (after app pre).world).1 = .ok resp →
    (∃ x, OwnsTree app k env (after app pre).world resp
      (after app (pre ++ [.aggregate user k env])).world x) ∧
    ∀ x, OwnsTree app k env (after app pre).world resp
        (after app (pre ++ [.aggregate user k env])).world x →
      ∃ c ∈ (after app pre).world.store.acceptedIn k, c.orgId = x
  aggregating : ∀ user k env, Unrequired (aggregateRound app user k env)
  publishing : ∀ user k env, Unrequired (publishRoundModel app user k env)

section Unrequired

variable {f : ℤ → ℤ} {w : World}

lemma unrequired_iff {α : Type} {m : Api α} :
    Unrequired m ↔ ∀ f : ℤ → ℤ, Respects (fun w w' => w' = w.requiring f) m := by
  constructor
  · rintro h f w _ rfl
    rw [h f w]
    exact ⟨rfl, rfl⟩
  · intro h f w
    obtain ⟨hout, hstate⟩ := h f w _ rfl
    exact Prod.ext hout.symm hstate

lemma getRound_requiring (f : ℤ → ℤ) (w : World) (k : ℤ) :
    (w.requiring f).store.getRound k = (w.store.getRound k).map (RoundRow.requiring f) :=
  AutoTable.get?_updateAll _ _ _

lemma requireRound_requiring (k : ℤ) (w w' : World) (h : w' = w.requiring f) :
    (requireRound k w').1 = (requireRound k w).1.map (RoundRow.requiring f) ∧
      (requireRound k w').2 = (requireRound k w).2.requiring f := by
  subst h
  rw [requireRound_readsOnly.state, requireRound_readsOnly.state]
  refine ⟨?_, rfl⟩
  unfold requireRound fetchRound
  cases Host.bindInt k with
  | error e => rfl
  | ok id =>
    change (orRaise ((w.requiring f).store.getRound id) _ _).1 =
      (orRaise (w.store.getRound id) _ _).1.map _
    rw [getRound_requiring]
    cases w.store.getRound id <;> rfl

lemma update_requiring {g : RoundRow → RoundRow} {hg : ∀ r, (g r).roundId = r.roundId} (k : ℤ)
    (h : ∀ r, (g r).requiring f = g (r.requiring f)) :
    (w.requiring f).setStore { (w.requiring f).store with
        rounds := (w.requiring f).store.rounds.update k g hg } =
      (w.setStore { w.store with rounds := w.store.rounds.update k g hg }).requiring f := by
  have hrounds : (w.store.rounds.update k g hg).updateAll (RoundRow.requiring f) (fun _ => rfl) =
      (w.store.rounds.updateAll (RoundRow.requiring f) fun _ => rfl).update k g hg :=
    AutoTable.updateAll_update h
  simp only [World.requiring, World.setStore, hrounds]

lemma log_requiring {app : App} {t : Decimal} {a b c : String} {d : Json} :
    Respects (fun w w' => w' = w.requiring f) (Api.log app t a b c d) := by
  apply Respects.write
  rintro w _ rfl
  rfl

lemma evaluate_setRounds (tm : TrustManager) (s : Store) (x : String) (judgement : Judgement) (n : ℤ)
    (now : ℚ) (rounds : AutoTable RoundRow.roundId) :
    tm.evaluate { s with rounds } x judgement n now =
      ((tm.evaluate s x judgement n now).1,
        { (tm.evaluate s x judgement n now).2 with rounds }) := by
  have hcur : TrustManager.currentTrust { s with rounds } x = TrustManager.currentTrust s x := rfl
  have hdrop : ∀ a, tm.suddenDrop { s with rounds } x a = tm.suddenDrop s x a := fun _ => rfl
  unfold TrustManager.evaluate
  simp only [hcur, hdrop]
  split
  · rfl
  · cases judgement with
    | unloadable e => rfl
    | unscored msg =>
      dsimp only
      split <;> rfl
    | scored accuracy =>
      dsimp only
      split
      · rfl
      · split
        · rfl
        · split <;> rfl

lemma scoreContributions_requiring {app : App} {tm : TrustManager} {k : ℤ} {env : ScoreEnv} {i : ℕ}
    {cs : List Store.AcceptedModel} :
    Respects (fun w w' => w' = w.requiring f) (scoreContributions app tm k env i cs) := by
  induction cs generalizing i with
  | nil => exact .pure _
  | cons c cs ih =>
    rw [scoreContributions]
    apply Respects.bind
    · apply Respects.read
      rintro w _ rfl
      rfl
    intro content
    cases content with
    | none =>
      apply Respects.bind ih
      intro tally
      exact .pure _
    | some mb =>
      apply Respects.bind
      · apply Respects.exec
        rintro w _ rfl
        have hev := evaluate_setRounds tm w.store c.orgId (env.judge i mb) c.numExamples
          (env.scoredAt i) (w.requiring f).store.rounds
        have hrounds := (TrustManager.evaluate_frame tm w.store c.orgId (env.judge i mb)
          c.numExamples (env.scoredAt i)).1.rounds
        constructor
        · exact (congrArg Prod.fst hev).symm
        · change (w.requiring f).setStore (tm.evaluate (w.requiring f).store c.orgId _ _ _).2 = _
          rw [show (w.requiring f).store = { w.store with rounds := (w.requiring f).store.rounds }
            from rfl, hev]
          simp only [World.requiring, World.setStore, hrounds]
      intro ev
      apply Respects.bind ih
      intro tally
      exact .pure _

lemma stageRound_requiring {app : App} {u : FLUser} {r : RoundRow} {k : ℤ} {responded : ℕ}
    {gate : Gate} {updates : List TrustUpdate} {bytes : Bytes} {info : MergeInfo}
    {env : AggregateEnv} :
    Respects (fun w w' => w' = w.requiring f)
      (stageRound app u r k responded gate updates bytes info env) := by
  unfold stageRound
  apply Respects.bind
  · apply Respects.write
    rintro w _ rfl
    rfl
  intro _
  apply Respects.bind
  · apply Respects.exec
    rintro w _ rfl
    exact ⟨rfl, rfl⟩
  intro _
  apply Respects.bind
  · apply Respects.write
    rintro w _ rfl
    exact update_requiring k fun _ => rfl
  intro _
  apply Respects.bind log_requiring
  intro _
  exact .pure _

lemma concludeRound_requiring {app : App} {k : ℤ} {env : AggregateEnv} {u : FLUser} {r : RoundRow}
    {responded : ℕ} {tally : Tally} :
    Respects (fun w w' => w' = w.requiring f) (concludeRound app k env u r responded tally) := by
  unfold concludeRound
  apply Respects.bind (.ensure _ _)
  intro _
  apply Respects.bind (.attempt _ _)
  intro out
  obtain ⟨canonical, gate⟩ := out
  dsimp only
  split
  · apply Respects.bind (.attempt _ _)
    intro shown
    apply Respects.bind log_requiring
    intro _
    apply Respects.bind (.attempt _ _)
    intro merged
    exact stageRound_requiring
  · apply Respects.bind (.attempt _ _)
    intro merged
    exact stageRound_requiring

lemma aggregateRound_requiring (app : App) (user : Option FLUser) (k : ℤ) (env : AggregateEnv) :
    Respects (fun w w' => w' = w.requiring f) (aggregateRound app user k env) := by
  unfold aggregateRound
  apply Respects.bind
  · apply flRequire_readsOnly.respects (π := fun _ => ())
    intro _ _ _
    rfl
  intro u
  apply Respects.bind_of_map (RoundRow.requiring f) (requireRound_requiring k) (fun _ => rfl)
  intro r
  apply Respects.bind (.ensure _ _)
  intro _
  apply Respects.bind (.ensure _ _)
  intro _
  apply Respects.bind
  · apply (ReadsOnly.orRaise _ _).respects (π := fun _ => ())
    intro _ _ _
    rfl
  intro settings
  apply Respects.bind
  · apply Respects.read
    rintro w _ rfl
    rfl
  intro accepted
  apply Respects.bind (.ensure _ _)
  intro _
  apply Respects.bind scoreContributions_requiring
  intro tally
  exact concludeRound_requiring

lemma publishRoundModel_requiring (app : App) (user : Option FLUser) (k : ℤ) (env : PublishEnv) :
    Respects (fun w w' => w' = w.requiring f) (publishRoundModel app user k env) := by
  unfold publishRoundModel
  apply Respects.bind
  · apply flRequire_readsOnly.respects (π := fun _ => ())
    intro _ _ _
    rfl
  intro u
  apply Respects.bind_of_map (RoundRow.requiring f) (requireRound_requiring k) (fun _ => rfl)
  intro _
  apply Respects.bind
  · apply Respects.read
    rintro w _ rfl
    rfl
  intro found
  apply Respects.bind
  · apply (ReadsOnly.orRaise _ _).respects (π := fun _ => ())
    intro _ _ _
    rfl
  intro staged
  apply Respects.bind (.ensure _ _)
  intro _
  apply Respects.bind
  · apply Respects.exec
    rintro w _ rfl
    change ((w.store.promoteGlobalModel _ _ _).1 =
      ((w.requiring f).store.promoteGlobalModel _ _ _).1 ∧ _)
    have hget : (w.requiring f).store.getGlobalModel staged.versionId =
      w.store.getGlobalModel staged.versionId := rfl
    simp only [Store.promoteGlobalModel, hget]
    split
    · exact ⟨rfl, rfl⟩
    · exact ⟨rfl, rfl⟩
  intro promoted
  apply Respects.bind
  · apply Respects.write
    rintro w _ rfl
    exact update_requiring k fun r => by split <;> rfl
  intro _
  apply Respects.bind
  · apply (ReadsOnly.orRaise _ _).respects (π := fun _ => ())
    intro _ _ _
    rfl
  intro gm
  apply Respects.bind log_requiring
  intro _
  exact .pure _

end Unrequired

lemma accepted_of_kept {k : ℤ} {env : AggregateEnv} {v : Survivor}
    (h : v ∈ trustedIn app k env (after app es).world) :
    ∃ c ∈ (after app es).world.store.acceptedIn k, c.orgId = v.orgId := by
  cases htrust : app.trust with
  | none =>
    rw [trustedIn, htrust] at h
    cases h
  | some settings =>
    have hscore : (scoreContributions app (app.trustManager settings) k env.score 0
        ((after app es).world.store.getAcceptedModels k)).wp
        (fun r t => ∃ tally, r = .ok tally ∧ Scored app (app.trustManager settings) k env.score 0
          ((after app es).world.store.getAcceptedModels k) (after app es).world tally t)
        (after app es).world := scoreContributions_spec 0 _ _
    obtain ⟨tally, -, hscored⟩ := hscore
    rw [← trustedIn_eq htrust hscored] at h
    obtain ⟨c, mb, ev, htr, rfl⟩ := hscored.mem_survivors.mp h
    have horg := (getAcceptedModels_orgs app es k).mem_iff.mp (List.mem_map_of_mem htr.mem.1)
    exact List.mem_map.mp horg

/-- A round is opened only if the required number of active orgs is invited, and each model that
is staged for it merges trees of orgs with an accepted contribution, of one org at least. -/
theorem min_clients (app : App) (es : List Event) : MinClients app es where
  aggregating := fun user k env => unrequired_iff.mpr fun f => aggregateRound_requiring app user k env
  publishing := fun user k env =>
    unrequired_iff.mpr fun f => publishRoundModel_requiring app user k env
  invited := by
    intro k r hr
    obtain ⟨before, user, body, env, between, username, rfl, hfresh, hsome, hopen⟩ :=
      opened_of_round hr
    have hparams : r.params = body.params app.observationHours := congrArg Prod.fst hopen
    rw [after_concat] at hsome
    have hstarted := started_of_fresh hfresh hsome
    refine ⟨before, user, body, env, between, rfl, hfresh, hparams, _,
      invitedOrgs_nodup (after app before).world.store body.targetOrgIds, ?_, fun x hx => ?_⟩
    · rw [hparams, List.length_map]
      exact hstarted.enough
    · obtain ⟨hactive, htargets⟩ := mem_invitedOrgs.mp hx
      rw [hparams]
      exact ⟨hactive, htargets⟩
  merged := by
    rintro pre user k env post resp rfl hok
    obtain ⟨done⟩ := aggregated_of_ok hok
    have hworld : (after app (pre ++ [.aggregate user k env])).world =
        (aggregateRound app user k env (after app pre).world).2 := by
      rw [after_concat]
      rfl
    rw [hworld]
    constructor
    · obtain ⟨-, -, hsome, hfilled⟩ := done.stagedBags
      cases hbags : bagsIn app k env (after app pre).world with
      | nil => exact absurd hbags hsome
      | cons b bags =>
        refine ⟨b.1, done.ownsTree_iff.mpr ?_⟩
        have hpos := List.length_pos_iff.mpr (hfilled b (hbags ▸ List.mem_cons_self))
        rw [hbags, leading_cons, List.mem_append, List.mem_replicate, maxGlobalTrees]
        left
        exact ⟨by omega, rfl⟩
    · intro x hx
      obtain ⟨v, hv, rfl⟩ := done.trusted_of_owns hx
      rw [done.keptIn_eq] at hv
      exact accepted_of_kept (mem_sortSurvivors.mp (List.mem_filter.mp hv).1)

/-- A round for all orgs that asks for two clients. -/
def pairBody : StartRoundRequest :=
  { Sample.roundBody none with
    minClients := 2
    minClients_range := by decide }

/-- One of the two invited orgs contributes. -/
def loneUpload : List Event :=
  [Sample.enroll "x" [1] 11, Sample.enroll "y" [2] 12,
    .startRound (some Sample.admin) pairBody
      { startedAt := 70, startsAt := "1970-01-01T00:01:10+00:00", loggedAt := Sample.zero },
    Sample.challenge "a" (Sample.certOf "x" [1] 11),
    Sample.contribute "x" "a" [1] 11 Sample.model, Sample.resume]

/-- Its trees alone are staged as the global model of the round. -/
theorem lone_contributor :
    (∃ r, (after Sample.app loneUpload).world.store.getRound 1 = some r ∧
      r.params.minClients = 2) ∧
    ∃ resp, (aggregateRound Sample.app (some Sample.admin) 1 (Sample.aggregateEnv allScored)
        (after Sample.app loneUpload).world).1 = .ok resp ∧
      ∀ x, OwnsTree Sample.app 1 (Sample.aggregateEnv allScored) (after Sample.app loneUpload).world
        resp (aggregateRound Sample.app (some Sample.admin) 1 (Sample.aggregateEnv allScored)
          (after Sample.app loneUpload).world).2 x → x = "x" := by
  have hrow : ((after Sample.app loneUpload).world.store.getRound 1).map (·.params.minClients) =
      some 2 := by decide +kernel
  have hresp : participation (aggregateRound Sample.app (some Sample.admin) 1
      (Sample.aggregateEnv allScored) (after Sample.app loneUpload).world).1 =
      some (["x"], 1) := by decide +kernel
  have htrusted : (trustedIn Sample.app 1 (Sample.aggregateEnv allScored)
      (after Sample.app loneUpload).world).map (·.orgId) = ["x"] := by decide +kernel
  obtain ⟨r, hr, hmin⟩ := Option.map_eq_some_iff.mp hrow
  obtain ⟨resp, hok, -, -⟩ := participation_eq_some hresp
  refine ⟨⟨r, hr, hmin⟩, resp, hok, fun x hx => ?_⟩
  obtain ⟨done⟩ := aggregated_of_ok hok
  obtain ⟨v, hv, rfl⟩ := done.trusted_of_owns hx
  rw [done.keptIn_eq] at hv
  have hmem := List.mem_map_of_mem (f := (·.orgId))
    (mem_sortSurvivors.mp (List.mem_filter.mp hv).1)
  rw [htrusted] at hmem
  exact List.mem_singleton.mp hmem

end MinClients

/-! ### The status of the orgs -/

section Status

variable {app : App}

/-- The worlds differ in nothing that an aggregation looks at. -/
structure Alike (w w' : World) : Prop where
  rounds : w.store.rounds = w'.store.rounds
  contributions : w.store.contributions = w'.store.contributions
  globalModels : w.store.globalModels = w'.store.globalModels
  reputation : w.store.reputation = w'.store.reputation
  files : w.files = w'.files

namespace Alike

variable {w w' : World}

lemma getAcceptedModels (h : Alike w w') (k : ℤ) :
    w.store.getAcceptedModels k = w'.store.getAcceptedModels k := by
  have htrust : ∀ x, (w.store.getOrg x).map (·.trustScore) =
      (w'.store.getOrg x).map (·.trustScore) := by
    intro x
    have hx := congrArg (Option.map Reputation.trust) (congrFun h.reputation x)
    rw [Store.reputation, Store.reputation, Option.map_map, Option.map_map] at hx
    exact hx
  simp only [Store.getAcceptedModels, Store.acceptedContributions, h.contributions, htrust]

lemma evaluate (h : Alike w w') (tm : TrustManager) (x : String) (judgement : Judgement) (n : ℤ)
    (now : ℚ) :
    (tm.evaluate w.store x judgement n now).1 = (tm.evaluate w'.store x judgement n now).1 ∧
      Alike (w.setStore (tm.evaluate w.store x judgement n now).2)
        (w'.setStore (tm.evaluate w'.store x judgement n now).2) := by
  obtain ⟨hreport, hsettle⟩ := TrustManager.evaluate_assess tm w.store x judgement n now
  obtain ⟨hreport', hsettle'⟩ := TrustManager.evaluate_assess tm w'.store x judgement n now
  have hframe := (TrustManager.evaluate_frame tm w.store x judgement n now).1
  have hframe' := (TrustManager.evaluate_frame tm w'.store x judgement n now).1
  refine ⟨by rw [hreport, hreport', h.reputation], ?_, ?_, ?_, ?_, h.files⟩
  · exact hframe.rounds.trans (h.rounds.trans hframe'.rounds.symm)
  · exact hframe.contributions.trans (h.contributions.trans hframe'.contributions.symm)
  · exact hframe.globalModels.trans (h.globalModels.trans hframe'.globalModels.symm)
  · funext y
    exact (hsettle y).trans (by rw [h.reputation]; exact (hsettle' y).symm)

end Alike

lemma log_respects {t : Decimal} {a b c : String} {d : Json} :
    Respects Alike (Api.log app t a b c d) := by
  apply Respects.write
  intro w w' h
  exact ⟨h.rounds, h.contributions, h.globalModels, h.reputation, h.files⟩

lemma scoreContributions_respects {tm : TrustManager} {k : ℤ} {env : ScoreEnv} {i : ℕ}
    {cs : List Store.AcceptedModel} :
    Respects Alike (scoreContributions app tm k env i cs) := by
  induction cs generalizing i with
  | nil => exact .pure _
  | cons c cs ih =>
    rw [scoreContributions]
    apply Respects.bind
    · apply Respects.read
      intro w w' h
      rw [h.files]
    intro content
    cases content with
    | none =>
      apply Respects.bind ih
      intro tally
      exact .pure _
    | some mb =>
      apply Respects.bind
      · apply Respects.exec
        intro w w' h
        exact h.evaluate tm c.orgId (env.judge i mb) c.numExamples (env.scoredAt i)
      intro ev
      apply Respects.bind ih
      intro tally
      exact .pure _

lemma stageRound_respects {u : FLUser} {r : RoundRow} {k : ℤ} {responded : ℕ} {gate : Gate}
    {updates : List TrustUpdate} {bytes : Bytes} {info : MergeInfo} {env : AggregateEnv} :
    Respects Alike (stageRound app u r k responded gate updates bytes info env) := by
  unfold stageRound
  apply Respects.bind
  · apply Respects.write
    intro w w' h
    refine ⟨h.rounds, h.contributions, h.globalModels, h.reputation, ?_⟩
    simp only [World.setFile, h.files]
  intro _
  apply Respects.bind
  · apply Respects.exec
    intro w w' h
    refine ⟨?_, h.rounds, h.contributions, ?_, h.reputation, h.files⟩
    · simp only [Store.stageGlobalModel, h.globalModels]
    · simp only [World.setStore, Store.stageGlobalModel, h.globalModels]
  intro _
  apply Respects.bind
  · apply Respects.write
    intro w w' h
    refine ⟨?_, h.contributions, h.globalModels, h.reputation, h.files⟩
    simp only [World.setStore, Store.completeRound, h.rounds]
  intro _
  apply Respects.bind log_respects
  intro _
  exact .pure _

lemma concludeRound_respects {k : ℤ} {env : AggregateEnv} {u : FLUser} {r : RoundRow}
    {responded : ℕ} {tally : Tally} :
    Respects Alike (concludeRound app k env u r responded tally) := by
  unfold concludeRound
  apply Respects.bind (.ensure _ _)
  intro _
  apply Respects.bind (.attempt _ _)
  intro out
  obtain ⟨canonical, gate⟩ := out
  dsimp only
  split
  · apply Respects.bind (.attempt _ _)
    intro shown
    apply Respects.bind log_respects
    intro _
    apply Respects.bind (.attempt _ _)
    intro merged
    exact stageRound_respects
  · apply Respects.bind (.attempt _ _)
    intro merged
    exact stageRound_respects

/-- An aggregation answers the same in worlds that are alike, and leaves them alike. -/
theorem aggregateRound_respects (app : App) (user : Option FLUser) (k : ℤ) (env : AggregateEnv) :
    Respects Alike (aggregateRound app user k env) := by
  rw [aggregateRound_parts]
  apply Respects.bind
  · apply dueRound_readsOnly.respects
    intro w w' h
    exact h.rounds
  intro checked
  apply Respects.bind
  · apply Respects.read
    intro w w' h
    exact h.getAcceptedModels k
  intro accepted
  apply Respects.bind (.ensure _ _)
  intro _
  apply Respects.bind scoreContributions_respects
  intro tally
  exact concludeRound_respects

lemma alike_setOrgStatus (w : World) (x : String) (st : OrgStatus) :
    Alike w (w.setStore (w.store.setOrgStatus x st)) := by
  refine ⟨rfl, rfl, rfl, ?_, rfl⟩
  funext y
  have hrow : (w.store.setOrgStatus x st).getOrg y = if x = y then
      (w.store.getOrg y).map (fun r => { r with status := st }) else w.store.getOrg y :=
    Table.get?_update w.store.orgs x y (fun r => { r with status := st }) fun _ => rfl
  simp only [World.setStore, Store.reputation, hrow]
  split
  · rw [Option.map_map]
    rfl
  · rfl

/-- The status of an org counts when its upload is recorded, and not when the round is
aggregated. -/
structure StatusAtUpload (app : App) (es : List Event) : Prop where
  uploaded : ∀ c ∈ (after app es).world.store.contributions.rows, c.accepted = true →
    ∃ pre e post, es = pre ++ e :: post ∧ c ∉ (after app pre).world.store.contributions.rows ∧
      c ∈ (after app (pre ++ [e])).world.store.contributions.rows ∧
      ∃ row, (after app pre).world.store.getOrg c.orgId = some row ∧ row.status = .active
  aggregated : ∀ user k env x st, Alike
      (aggregateRound app user k env (after app es).world).2
      (aggregateRound app user k env ((after app es).world.setStore
        ((after app es).world.store.setOrgStatus x st))).2 ∧
    (aggregateRound app user k env (after app es).world).1 =
      (aggregateRound app user k env ((after app es).world.setStore
        ((after app es).world.store.setOrgStatus x st))).1

theorem status_at_upload (app : App) (es : List Event) : StatusAtUpload app es where
  uploaded := by
    intro c hc hacc
    obtain ⟨done⟩ := accepted_provenance hc hacc
    obtain ⟨row, pem, pub, sig, hrow, hactive, -⟩ := done.signed
    exact ⟨done.pre, _, done.post, done.split, done.recorded.1, done.recorded.2, row, hrow, hactive⟩
  aggregated := by
    intro user k env x st
    obtain ⟨hout, halike⟩ := aggregateRound_respects app user k env _ _
      (alike_setOrgStatus (after app es).world x st)
    exact ⟨halike, hout⟩

/-- The only contributor is revoked before the round is aggregated. -/
def revokedUpload : List Event :=
  [Sample.enroll "x" [1] 11, Sample.start none, Sample.challenge "a" (Sample.certOf "x" [1] 11),
    Sample.contribute "x" "a" [1] 11 Sample.model, Sample.resume, Sample.revoke "x"]

/-- All trees of the staged model are of the revoked org. -/
theorem revoked_org_merged :
    (∃ row, (after Sample.app revokedUpload).world.store.getOrg "x" = some row ∧
      row.status = .revoked) ∧
    ∃ resp, (aggregateRound Sample.app (some Sample.admin) 1 (Sample.aggregateEnv allScored)
        (after Sample.app revokedUpload).world).1 = .ok resp ∧
      OwnsTree Sample.app 1 (Sample.aggregateEnv allScored)
        (after Sample.app revokedUpload).world resp
        (aggregateRound Sample.app (some Sample.admin) 1 (Sample.aggregateEnv allScored)
          (after Sample.app revokedUpload).world).2 "x" := by
  have hrow : ((after Sample.app revokedUpload).world.store.getOrg "x").map (·.status) =
      some .revoked := by decide +kernel
  have hresp : participation (aggregateRound Sample.app (some Sample.admin) 1
      (Sample.aggregateEnv allScored) (after Sample.app revokedUpload).world).1 =
      some (["x"], 1) := by decide +kernel
  have hbags : (bagsIn Sample.app 1 (Sample.aggregateEnv allScored)
      (after Sample.app revokedUpload).world).map (fun b => (b.1, b.2.length)) = [("x", 1)] := by
    decide +kernel
  obtain ⟨row, hget, hstatus⟩ := Option.map_eq_some_iff.mp hrow
  obtain ⟨resp, hok, -, -⟩ := participation_eq_some hresp
  obtain ⟨done⟩ := aggregated_of_ok hok
  refine ⟨⟨row, hget, hstatus⟩, resp, hok, done.ownsTree_iff.mpr ?_⟩
  obtain ⟨b, rest, hcons, hb, -⟩ := List.map_eq_cons_iff.mp hbags
  obtain ⟨hx, hlen⟩ := Prod.mk.inj hb
  rw [hcons, leading_cons, hlen, hx]
  exact List.mem_append_left _ List.mem_cons_self

end Status

end FlCoordinator
