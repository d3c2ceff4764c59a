import FlCoordinator.Announcements
import FlCoordinator.Reputation
import FlCoordinator.Submission
import FlCoordinator.Weights

/-!
# No state is a dead end

Whatever rounds were left behind, an org in good standing and the operators can bring a new model
to publication: a round is opened, takes the upload, is aggregated and published.
-/

namespace FlCoordinator

open Lib Handler

/-! ### What the requests of a round leave alone -/

section Alone

variable {app : App} {s : Sys}

lemma authenticated_congr {req : Request} {w t : World} {now : ℚ}
    (horgs : t.store.orgs = w.store.orgs) (hcrl : t.crl = w.crl) :
    getAuthenticatedOrgId app req t now = getAuthenticatedOrgId app req w now := by
  have hcert : orgIdOfCert app t now = orgIdOfCert app w now := by
    funext cert
    simp only [orgIdOfCert, Store.getOrg, horgs, hcrl]
  have hkey : orgIdOfApiKey app t.store = orgIdOfApiKey app w.store := by
    funext key
    simp only [orgIdOfApiKey, Store.listOrgs, horgs]
  simp only [getAuthenticatedOrgId, extractVerifiedOrgId, hcert, hkey]

/-- The orgs and the CRL are left alone. -/
structure SameOrgs (w t : World) : Prop where
  orgs : t.store.orgs = w.store.orgs
  crl : t.crl = w.crl

lemma SameOrgs.trans {u v w : World} (h : SameOrgs u v) (h' : SameOrgs v w) : SameOrgs u w :=
  ⟨h'.orgs.trans h.orgs, h'.crl.trans h.crl⟩

/-- The requests that lead up to an upload concern no org. -/
def Event.preparing : Event → Prop
  | .startRound .. | .challenge .. | .contribute _ | .resume .. => True
  | _ => False

lemma sameOrgs_next {e : Event} (he : e.preparing) : SameOrgs s.world (next app e s).world := by
  have heffect := next_effect app s e
  generalize (next app e s).world = t at heffect
  cases heffect with
  | idle store crl => exact ⟨congrArg Store.orgs store, crl⟩
  | start done crl =>
    obtain ⟨username, hstore⟩ := done.store
    obtain ⟨rounds, hopen, -⟩ := Store.openRound_eq s.world.store _ username _ _ _
    exact ⟨by rw [hstore, hopen], crl⟩
  | challenge done crl =>
    obtain ⟨orgId, -, -, hissue⟩ := done.caller
    obtain ⟨challenges, hstore, -⟩ := Store.issueChallenge_ok hissue
    exact ⟨by rw [hstore], crl⟩
  | finish p r pending outcome =>
    cases outcome with
    | refused e no => exact ⟨rfl, rfl⟩
    | burned e t no burnt consumes store files crl => exact ⟨by rw [store]; rfl, crl⟩
    | rejected e t no burnt n consumes store files crl => exact ⟨by rw [store]; rfl, crl⟩
    | accepted resp t chal n evidence store files crl => exact ⟨by rw [store]; rfl, crl⟩
  | _ => exact absurd he not_false

end Alone

/-! ### The requests are answered -/

section Answers

variable {app : App} {w : World}

lemma startRound_answered {user : Option FLUser} {body : StartRoundRequest} (env : StartRoundEnv)
    (hperm : Permitted user "fl_start_round")
    (henough : body.minClients ≤ (invitedOrgs w.store body.targetOrgIds).length) :
    ∃ resp, (startRound app user body env w).1 = .ok resp ∧
      resp.roundId = w.store.rounds.seq + 1 := by
  have hspec : (startRound app user body env).wp
      (fun r _ => ∃ resp, r = .ok resp ∧ resp.roundId = w.store.rounds.seq + 1) w := by
    unfold startRound
    apply wp_flRequire_bind (fun hno => absurd hperm hno)
    intro u _ _
    apply wp_query_bind
    apply wp_ensure_bind_of henough
    refine wp_insert_bind (wp_execute_bind (wp_log_bind ?_))
    exact ⟨_, rfl, rfl⟩
  exact hspec

lemma issueChallenge_fresh {s : Store} {orgId challenge : String} {k : ℤ} {ttl now : ℚ}
    (hfresh : s.challenges.get? challenge = none) :
    ∃ s', s.issueChallenge orgId k challenge ttl now = .ok s' := by
  have hkey : ¬challenge ∈ s.challenges.rows.map ChallengeRow.challenge := by
    intro hmem
    obtain ⟨row, hrow, hkey⟩ := List.mem_map.mp hmem
    exact Table.get?_eq_none_iff.mp hfresh row hrow hkey
  unfold Store.issueChallenge Table.insert?
  rw [dif_neg hkey]
  exact ⟨_, rfl⟩

lemma issueRoundChallenge_answered {req : Request} {k : ℤ} {env : ChallengeEnv} {orgId : String}
    {r : RoundRow} (hauth : getAuthenticatedOrgId app req w env.authAt = .ok orgId)
    (hfit : Host.bindInt k = .ok k) (hr : w.store.getRound k = some r) (hrun : r.status = .running)
    (horg : (w.store.getOrg orgId).isSome) (hfresh : w.store.challenges.get? env.challenge = none) :
    (issueRoundChallenge app req k env w).1 = .ok (env.challenge, env.issuedAt + 600) := by
  have hspec : (issueRoundChallenge app req k env).wp
      (fun r _ => r = .ok (env.challenge, env.issuedAt + 600)) w := by
    unfold issueRoundChallenge requireRunning
    apply wp_authenticate_ok hauth
    apply wp_requireRound_ok hfit hr
    apply wp_ensure_bind_of hrun
    apply wp_query_bind
    apply wp_ensure_bind_of horg
    obtain ⟨s', hs'⟩ := @issueChallenge_fresh w.store orgId env.challenge k 600 env.issuedAt hfresh
    apply wp_tryExecute_bind
    · intro e he
      rw [hs'] at he
      cases he
    · intro _ _
      rfl
  exact hspec

lemma contributionForm_answered {host : Host} {client : OrgClient}
    {load : Bytes → Except PyErr CaKey} {network : String → HttpResponse} {k n : ℤ}
    {modelBytes priv : Bytes} {now challenge : String} {expiresAt : Json}
    (hload : privateKeyFromPem load client.orgPrivateKeyPem = .ok priv)
    (hnetwork : network s!"{client.baseUrl}/fl/rounds/{intStr k}/challenge" =
      ⟨200, .ok (challengeBody challenge expiresAt)⟩) :
    ∃ form, client.contributionForm host load network k modelBytes n now = .ok form := by
  have hchallenge : client.getChallenge network k = .ok (.str challenge) := by
    rw [OrgClient.getChallenge, hnetwork]
    rfl
  obtain ⟨text, htext⟩ : ∃ text, Json.decodeUtf8 (buildContributionAttestation host k client.orgId
      modelBytes n challenge now) = some text := by
    unfold buildContributionAttestation
    rw [canonicalJson, Json.encodeChars_ascii (Json.ascii_text Json.readable_compact _)]
    exact ⟨_, Json.decodeUtf8_ascii (Json.ascii_text Json.readable_compact _)⟩
  use ⟨modelBytes, String.ofList text, toHex (sign host priv (buildContributionAttestation host k
    client.orgId modelBytes n challenge now))⟩
  have hsigned : buildSignedContribution host load client.orgPrivateKeyPem k client.orgId modelBytes
      n (.str challenge) now = .ok (buildContributionAttestation host k client.orgId modelBytes n
        challenge now, toHex (sign host priv (buildContributionAttestation host k client.orgId
          modelBytes n challenge now))) := bind_eq_ok.mpr ⟨priv, hload, rfl⟩
  refine bind_eq_ok.mpr ⟨_, hchallenge, bind_eq_ok.mpr ⟨_, hsigned, ?_⟩⟩
  simp only [htext]

lemma contributeFinish_stores {p : Pending} {env : ContributeEnv} {chal : ChallengeRow} {n : ℤ}
    (h : Evidence app p env w chal n) :
    (contributeFinish app p env w).2.store =
        ((w.store.consumeChallengeRow chal.challenge env.consumedAt).recordContribution
          (acceptedContribution app p chal.challenge n) env.recordedAt).2 ∧
      (contributeFinish app p env w).2.files = Function.update w.files
        (contributionPath app.modelDir p.roundId p.orgId (app.host.sha256hex p.upload))
        (some p.upload) ∧
      (contributeFinish app p env w).2.crl = w.crl := by
  have hspec : FinishOutcome app p env w (contributeFinish app p env w).1
      (contributeFinish app p env w).2 := contributeFinish_spec
  generalize (contributeFinish app p env w).1 = r at hspec
  generalize (contributeFinish app p env w).2 = t at hspec
  cases hspec with
  | refused e no => exact absurd h.consumesChallenge (no _)
  | burned e t no burnt consumes store files crl => exact absurd ⟨chal, n, h⟩ no
  | rejected e t no burnt m consumes store files crl => exact absurd ⟨chal, n, h⟩ no
  | accepted resp t chal' n' evidence store files crl =>
    obtain ⟨rfl, rfl⟩ := evidence_unique h evidence
    exact ⟨store, files, crl⟩

end Answers

/-! ### One good contribution is enough -/

section Lone

variable {app : App} {w : World} {settings : TrustSettings}

/-- An org whose model the trust manager accepts, judged with this accuracy. The drop is rounded as
floats are. -/
structure GoodStanding (tm : TrustManager) (r : OrgRow) (accuracy : ℚ) : Prop where
  trust : tm.minTrust ≤ r.trustScore
  accurate : tm.minAccuracy ≤ accuracy
  steady : ∀ prev, r.lastAccuracy = some prev →
    tm.python.round (prev - accuracy) ≤ tm.maxAccuracyDrop

lemma accept_weight {tm : TrustManager} {s : Store} {orgId : String} {n : ℤ}
    {accuracy : Option ℚ} {now : ℚ} (hmin : 1 / 4 ≤ tm.minTrust ∧ tm.minTrust ≤ 1)
    (hcap : 0 < tm.maxNumExamples) (htrust : tm.minTrust ≤ TrustManager.currentTrust s orgId) :
    0 < (TrustManager.accept tm s orgId n accuracy now).1.weight := by
  have hbump : 1 / 4 ≤ (TrustManager.bump tm s orgId (tm.python.round (2 / 100)) now).1 :=
    hmin.1.trans (TrustManager.le_clampTrust_reward tm.python hmin.2 htrust)
  have hround := tm.roundsWithin
  -- rounding moves neither factor nor their product to zero
  have hcapped : 1 / 2 ≤ tm.python.round ((min (max n 1) tm.maxNumExamples : ℤ) : ℚ) := by
    have hone : (1 : ℚ) ≤ ((min (max n 1) tm.maxNumExamples : ℤ) : ℚ) := by
      have hint : 1 ≤ min (max n 1) tm.maxNumExamples := by omega
      exact_mod_cast hint
    have hbelow := (hround.bounds (q := 1) (by norm_num) (by norm_num)).1
    have hmono := tm.python.round_mono hone
    linarith
  have hproduct : 1 / 8 ≤ (TrustManager.bump tm s orgId (tm.python.round (2 / 100)) now).1 *
      tm.python.round ((min (max n 1) tm.maxNumExamples : ℤ) : ℚ) := by
    calc (1 / 8 : ℚ) = 1 / 4 * (1 / 2) := by norm_num
      _ ≤ _ := mul_le_mul hbump hcapped (by norm_num) (by linarith)
  have hbelow := (hround.bounds (q := 1 / 8) (by norm_num) (by norm_num)).1
  have hmono := tm.python.round_mono hproduct
  change 0 < tm.python.round _
  linarith

lemma evaluate_goodStanding {tm : TrustManager} {s : Store} {r : OrgRow} {accuracy : ℚ}
    {orgId : String} (n : ℤ) (now : ℚ) (hmin : 1 / 4 ≤ tm.minTrust ∧ tm.minTrust ≤ 1)
    (hcap : 0 < tm.maxNumExamples) (hr : s.getOrg orgId = some r)
    (h : GoodStanding tm r accuracy) :
    (tm.evaluate s orgId (.scored accuracy) n now).1.accepted = true ∧
      0 < (tm.evaluate s orgId (.scored accuracy) n now).1.weight := by
  have hcurrent : tm.minTrust ≤ TrustManager.currentTrust s orgId := by
    rw [TrustManager.currentTrust, hr]
    exact h.trust
  have hdrop : TrustManager.suddenDrop tm s orgId accuracy = none := by
    rw [TrustManager.suddenDrop, Store.getOrgLastAccuracy, hr, Option.bind_some,
      Option.filter_eq_none_iff]
    intro prev hprev
    simpa using h.steady prev hprev
  have hget : (s.setOrgLastAccuracy orgId accuracy).getOrg orgId =
      some { r with lastAccuracy := some accuracy } := by
    rw [getOrg_setOrgLastAccuracy, if_pos rfl, hr]
    rfl
  have hcurrent' : tm.minTrust ≤
      TrustManager.currentTrust (s.setOrgLastAccuracy orgId accuracy) orgId := by
    rw [TrustManager.currentTrust, hget]
    exact h.trust
  unfold TrustManager.evaluate
  simp only
  rw [if_neg (not_lt.mpr hcurrent)]
  by_cases hval : tm.validationData = false
  · rw [if_pos hval]
    exact ⟨rfl, accept_weight hmin hcap hcurrent⟩
  · rw [if_neg hval, if_neg (not_lt.mpr h.accurate), hdrop]
    exact ⟨rfl, accept_weight hmin hcap hcurrent'⟩

lemma trustedIn_lone {k : ℤ} {env : AggregateEnv} {c : Store.AcceptedModel} {modelBytes : Bytes}
    {r : OrgRow} {accuracy : ℚ} (htrust : app.trust = some settings)
    (hcap : 0 < settings.maxNumExamples) (hlone : w.store.getAcceptedModels k = [c])
    (hfile : w.files c.modelPath = some modelBytes) (hr : w.store.getOrg c.orgId = some r)
    (hgood : GoodStanding (app.trustManager settings) r accuracy)
    (hjudge : env.score.judge 0 modelBytes = .scored accuracy) :
    ∃ weight, 0 < weight ∧ trustedIn app k env w = [⟨c.orgId, modelBytes, weight⟩] := by
  obtain ⟨haccepted, hweight⟩ := evaluate_goodStanding c.numExamples (env.score.scoredAt 0)
    (app.minTrust_mem settings) hcap hr hgood
  refine ⟨_, hweight, ?_⟩
  rw [trustedIn, htrust]
  simp only [hlone, trustSurvivors, hfile, hjudge, haccepted, if_true]

/-- A model that merges alone, into these bytes. -/
structure GoodModel (py : Python) (modelBytes merged : Bytes) : Prop where
  schema : ∃ canonical, modelFeatureSchema py modelBytes = .ok canonical ∧
    canonical.same canonical = true
  merges : ∃ info, mergeXgboostModels py [(modelBytes, 1)] = .ok (merged, info)

/-- The weight of a model without others is not looked at. -/
lemma mergeParsed_lone (py : Python) (weight : ℚ) (p : Parsed) :
    mergeParsed py [p.scale weight] = mergeParsed py [p] := rfl

lemma GoodModel.merges_weighted {py : Python} {modelBytes merged : Bytes}
    (h : GoodModel py modelBytes merged) {weight : ℚ} (hweight : 0 < weight) :
    ∃ info, mergeXgboostModels py [(modelBytes, weight)] = .ok (merged, info) := by
  obtain ⟨info, hmerge⟩ := h.merges
  use info
  rw [mergeXgboostModels_parts] at hmerge ⊢
  have hscale := @parseModels_scale py weight hweight [(modelBytes, 1)]
  simp only [scaleWeights, List.map_cons, List.map_nil, mul_one] at hscale
  obtain ⟨parsed, hparsed, hmerged⟩ := bind_eq_ok.mp hmerge
  rw [hscale, hparsed]
  obtain ⟨-, rfl⟩ := parseModels_eq_ok.mp hparsed
  cases hused : usable? py (modelBytes, 1) with
  | none =>
    rw [List.filterMap_cons_none hused] at hmerged
    cases hmerged
  | some p =>
    rw [List.filterMap_cons_some hused] at hmerged ⊢
    exact (mergeParsed_lone py weight p).trans hmerged

lemma aggregateRound_lone {user : Option FLUser} {k : ℤ} {env : AggregateEnv} {orgId : String}
    {modelBytes merged : Bytes} {weight : ℚ} (due : Due user k env w)
    (hmodel : GoodModel app.python modelBytes merged) (hweight : 0 < weight)
    (hlone : trustedIn app k env w = [⟨orgId, modelBytes, weight⟩]) :
    ∃ resp, (aggregateRound app user k env w).1 = .ok resp ∧
      ∃ done : Aggregated app user k env w resp (aggregateRound app user k env w).2,
        done.bytes = merged := by
  obtain ⟨canonical, hschema, hsame⟩ := hmodel.schema
  obtain ⟨info, hmerge⟩ := hmodel.merges_weighted hweight
  have hagrees : agreeing app.python canonical [⟨orgId, modelBytes, weight⟩] =
      [(modelBytes, weight)] := by
    have hfits : agrees app.python canonical ⟨orgId, modelBytes, weight⟩ = true :=
      agrees_eq_true.mpr ⟨canonical, hschema, hsame⟩
    simp [agreeing, hfits]
  have hsort : sortSurvivors [⟨orgId, modelBytes, weight⟩] = [⟨orgId, modelBytes, weight⟩] := rfl
  have hcombines : Combinable app.python canonical [⟨orgId, modelBytes, weight⟩] := by
    constructor
    · exact ⟨_, _, hsort, hschema⟩
    · intro v hv
      obtain rfl := List.mem_singleton.mp hv
      exact ⟨canonical, hschema, Or.inl hsame⟩
    · rw [← mergeXgboostModels_isOk agreeing_sorted agreeing_fits, hsort, hagrees]
      exact ⟨_, hmerge⟩
  have houtcome := aggregateRound_outcome app due
  rw [wp_def, hlone] at houtcome
  rcases houtcome with ⟨-, hnone⟩ | ⟨-, -, hcrash⟩ | ⟨resp, hok⟩
  · cases hnone
  · exact absurd hcombines (hcrash canonical)
  obtain ⟨done⟩ := aggregated_of_ok hok
  refine ⟨resp, hok, done, ?_⟩
  have hcanonical : canonical = done.canonical := by
    have hdone := done.combinable
    rw [hlone] at hdone
    exact hcombines.canonical_unique hdone
  have hweighted : done.gate.weighted = [(modelBytes, weight)] := by
    rw [(schemaGate_eq_ok done.gated).2.2.1, done.survivors_eq, hlone, hsort, ← hcanonical, hagrees]
  have hmerged := done.merged
  rw [hweighted, hmerge] at hmerged
  exact (congrArg Prod.fst (Except.ok.inj hmerged)).symm

end Lone

/-! ### The upload -/

section Upload

variable {app : App}

lemma exists_freshChallenge (s : Store) : ∃ challenge, s.challenges.get? challenge = none := by
  have hinf : Infinite String := Infinite.of_injective (fun n => String.ofList (Json.natText n))
    fun _ _ h => natText_injective (String.ofList_inj.mp h)
  obtain ⟨challenge, hfresh⟩ :=
    Infinite.exists_notMem_finset (s.challenges.rows.map ChallengeRow.challenge).toFinset
  use challenge
  rw [Table.get?_eq_none_iff]
  intro row hrow hkey
  exact hfresh (List.mem_toFinset.mpr (List.mem_map.mpr ⟨row, hrow, hkey⟩))

/-- A client that the coordinator knows: it is authenticated with its requests and signs with the
key that is registered for it. -/
structure Known (app : App) (load : Bytes → Except PyErr CaKey) (client : OrgClient) (priv : Bytes)
    (req : Request) (authAt : ℚ) (w : World) : Prop where
  caller : getAuthenticatedOrgId app req w authAt = .ok client.orgId
  signs : Signs app.host load client priv
  key : ∃ pem, w.store.getOrgPublicKey client.orgId = some pem ∧
    publicKeyFromPem app.host (encode pem) = .ok (app.host.ed25519Public priv)

variable {load : Bytes → Except PyErr CaKey} {client : OrgClient} {priv : Bytes} {req : Request}
  {authAt : ℚ} {k n : ℤ} {modelBytes : Bytes} {now : String}

lemma Known.of_sameOrgs {w t : World} (h : Known app load client priv req authAt w)
    (hsame : SameOrgs w t) : Known app load client priv req authAt t where
  caller := (authenticated_congr hsame.orgs hsame.crl).trans h.caller
  signs := h.signs
  key := by
    have hkey := h.key
    simp only [Store.getOrgPublicKey, Store.getOrg, hsame.orgs] at hkey ⊢
    exact hkey

lemma Known.isSome {w : World} (h : Known app load client priv req authAt w) :
    (w.store.getOrg client.orgId).isSome := by
  obtain ⟨pem, hpem, -⟩ := h.key
  obtain ⟨-, row, hrow, -⟩ := Store.getOrgPublicKey_eq_some.mp hpem
  rw [hrow]
  rfl

lemma exchange_possible {before : List Event} {r : RoundRow}
    (hknown : Known app load client priv req authAt (after app before).world)
    (hfit : Host.bindInt k = .ok k) (hr : (after app before).world.store.getRound k = some r)
    (hrun : r.status = .running) :
    ∃ x : Exchange app load client k n modelBytes now, x.before = before ∧ x.mid = [] ∧
      x.req = req ∧ x.issue.authAt = authAt ∧ x.issue.issuedAt = authAt ∧ x.postReq = req ∧
      x.postAt = authAt := by
  obtain ⟨challenge, hfresh⟩ := exists_freshChallenge (after app before).world.store
  obtain ⟨issue, hissueAt, hissuedAt, hissue⟩ : ∃ issue : ChallengeEnv, issue.authAt = authAt ∧
      issue.issuedAt = authAt ∧ issue.challenge = challenge :=
    ⟨⟨authAt, challenge, authAt⟩, rfl, rfl, rfl⟩
  have hcaller : getAuthenticatedOrgId app req (after app before).world issue.authAt =
      .ok client.orgId := hissueAt ▸ hknown.caller
  have hanswer := issueRoundChallenge_answered hcaller hfit hr hrun hknown.isSome (hissue ▸ hfresh)
  obtain ⟨form, hform⟩ := @contributionForm_answered app.host client load
    (fun _ => httpAnswer 200 (fun a : String × ℚ => challengeBody a.1 .null)
      (issueRoundChallenge app req k issue (after app before).world).1)
    k n modelBytes priv now issue.challenge .null hknown.signs.loaded (by rw [hanswer]; rfl)
  exact ⟨{ before, req, issue
           mid := []
           network := _
           number := fun _ => .null
           form
           postReq := req
           postAt := authAt
           asked := hcaller
           answered := rfl
           built := hform }, rfl, rfl, rfl, hissueAt, hissuedAt, rfl, rfl⟩

/-- The state `t` comes from `s` by the upload of one model to the round, its only one. -/
structure LoneUpload (client : OrgClient) (k : ℤ) (modelBytes : Bytes) (s t : World) : Prop where
  orgs : SameOrgs s t
  rounds : t.store.rounds = s.store.rounds
  stored : ∃ c, t.store.getAcceptedModels k = [c] ∧ c.orgId = client.orgId ∧
    t.files c.modelPath = some modelBytes

lemma getAcceptedModels_lone {s t : Store} {c : ContributionRow} {path : String}
    (hrows : t.contributions.rows = s.contributions.rows ++ [c])
    (hnone : ∀ d ∈ s.contributions.rows, d.roundId = k → d.accepted = false)
    (hround : c.roundId = k) (haccepted : c.accepted = true) (hpath : c.modelPath = some path) :
    ∃ m, t.getAcceptedModels k = [m] ∧ m.orgId = c.orgId ∧ m.modelPath = path := by
  have hold : s.contributions.rows.filter (fun d => decide (d.roundId = k ∧ d.accepted = true ∧
      d.modelPath.isSome)) = [] := by
    rw [List.filter_eq_nil_iff]
    intro d hd hfound
    obtain ⟨hk, hacc, -⟩ := of_decide_eq_true hfound
    rw [hnone d hd hk] at hacc
    cases hacc
  have hfilter : t.contributions.rows.filter (fun d => decide (d.roundId = k ∧ d.accepted = true ∧
      d.modelPath.isSome)) = [c] := by
    rw [hrows, List.filter_append, hold, List.nil_append]
    simp [hround, haccepted, hpath]
  rw [Store.getAcceptedModels, Store.acceptedContributions, hfilter]
  refine ⟨_, rfl, rfl, ?_⟩
  simp [hpath]

/-- The clock of an upload that is read in no time. -/
def finishAt (t : ℚ) : ContributeEnv where
  checkedAt := t
  consumedAt := t
  recordedAt := t
  loggedAt := .ofInt 0

lemma upload_possible {before : List Event} {r : RoundRow}
    (hknown : Known app load client priv req authAt (after app before).world)
    (hfit : Host.bindInt k = .ok k) (hr : (after app before).world.store.getRound k = some r)
    (hrun : r.status = .running)
    (hnone : ∀ d ∈ (after app before).world.store.contributions.rows, d.roundId = k →
      d.accepted = false)
    (hsize : (modelBytes.length : ℤ) ≤ app.maxModelBytes) (hn : Host.bindInt n = .ok n)
    (hclock : ∃ sent, submittedAt app.host (.str now) = .ok sent ∧ drift authAt sent ≤ 300) :
    ∃ issue upload i, issue.authAt = authAt ∧ issue.issuedAt = authAt ∧ upload.req = req ∧
      upload.authAt = authAt ∧ upload.upload = modelBytes ∧
      LoneUpload client k modelBytes (after app before).world
        (after app (before ++ [.challenge req k issue, .contribute upload,
          .resume i (finishAt authAt)])).world := by
  obtain ⟨x, rfl, hmid, rfl, hissueAt, hissuedAt, hpostReq, hpostAt⟩ :=
    @exchange_possible app load client priv req authAt k n modelBytes now before r hknown hfit hr
      hrun
  obtain ⟨sent, hsent, hdrift⟩ := hclock
  have hevents : x.events = x.before ++ [.challenge x.req k x.issue] := by
    rw [Exchange.events, hmid]
  have hasked : after app x.events =
      next app (.challenge x.req k x.issue) (after app x.before) := by
    rw [hevents, after_concat]
  have hsame : SameOrgs (after app x.before).world (after app x.events).world := by
    rw [hasked]
    exact sameOrgs_next trivial
  have hframe := (next_effect app (after app x.before) (.challenge x.req k x.issue)).frame
  rw [← hasked] at hframe
  have hrounds := hframe.rounds (by simp [Event.writes])
  have hcontributions := hframe.contributions (by simp [Event.writes])
  have hposted : x.Posted := by
    constructor
    · rw [hpostReq, hpostAt]
      exact (hknown.of_sameOrgs hsame).caller
    · refine ⟨r, ?_, hrun⟩
      rw [Store.getRound, hrounds]
      exact hr
    · rw [← Bool.not_eq_true, Store.hasAcceptedContribution_iff, hcontributions]
      rintro ⟨d, hd, hround, -, hacc⟩
      rw [hnone d hd hround] at hacc
      cases hacc
    · exact hn
  have hsuspended := Exchange.suspended hposted hknown.signs
  have htime : x.InTime priv (finishAt authAt) (after app x.events).world := by
    constructor
    · exact hsize
    · exact ⟨sent, hsent, hdrift⟩
    · rw [hissuedAt]
      simp [finishAt]
    · exact (hknown.of_sameOrgs hsame).key
  have hlive : (after app x.events).world.store.challenges.get? x.issue.challenge =
      some (issuedRow client.orgId k x.issue) := by
    obtain ⟨answer, hanswer⟩ := x.issued
    rw [hasked]
    exact (issueRoundChallenge_ok x.asked hanswer).2.2
  have hev := Exchange.evidence hknown.signs hposted htime hlive
  obtain ⟨hstore, hfiles, hcrl⟩ := contributeFinish_stores hev
  have hupload : x.pending.upload = modelBytes := (x.form_eq hknown.signs).1
  have hlast : (after app (x.before ++ [.challenge x.req k x.issue, .contribute x.upload,
      .resume (after app x.events).inFlight.length (finishAt authAt)])).world =
      (contributeFinish app x.pending (finishAt authAt) (after app x.events).world).2 := by
    have hsplit : x.before ++ [.challenge x.req k x.issue, .contribute x.upload,
        .resume (after app x.events).inFlight.length (finishAt authAt)] =
        x.events ++ [.contribute x.upload] ++
          [.resume (after app x.events).inFlight.length (finishAt authAt)] := by
      simp [hevents]
    rw [hsplit, after_concat, after_concat, hsuspended]
    simp [next]
  refine ⟨x.issue, x.upload, (after app x.events).inFlight.length, hissueAt, hissuedAt, hpostReq,
    hpostAt, hupload, ?_⟩
  rw [hlast]
  constructor
  · apply hsame.trans
    exact ⟨by rw [hstore]; rfl, hcrl⟩
  · rw [hstore]
    exact hrounds
  · have hrows := congrArg (fun s => s.contributions.rows) hstore
    have hlone := @getAcceptedModels_lone k (after app x.events).world.store _ _ _ hrows
      (by rw [hcontributions]; exact hnone) rfl rfl rfl
    obtain ⟨c, hc, horg, hpath⟩ := hlone
    refine ⟨c, hc, horg, ?_⟩
    rw [hpath, hfiles, hupload]
    exact Function.update_self _ _ _

end Upload

/-! ### The publication -/

section Release

variable {app : App} {s : Sys} {k : ℤ}

/-- The active version is the model of the round, with these bytes. -/
def Released (k : ℤ) (merged : Bytes) (w : World) : Prop :=
  ∃ g, w.store.getActiveGlobalModel = some g ∧ g.roundId = k ∧ w.files g.modelPath = some merged

lemma oneActive_run (app : App) (es : List Event) : OneActive (after app es).world.store :=
  run_invariant_all (next app) (I := fun s => OneActive s.world.store) (oneActive_next app)
    (by simp [OneActive, init, Store.empty]) es

lemma getActiveGlobalModel_eq {s : Store} {g : GlobalModelRow} (h : OneActive s)
    (hg : g ∈ s.globalModels.rows) (hst : g.status = .active) :
    s.getActiveGlobalModel = some g := by
  cases hfound : s.getActiveGlobalModel with
  | none => exact absurd hfound (Store.getActiveGlobalModel_ne_none hg hst)
  | some q =>
    obtain ⟨hq, hqst⟩ := Store.getActiveGlobalModel_some hfound
    rw [h q (Table.get?_mem hq) g hg hqst hst]

lemma getStagedModelForRound_eq (h : Consistent app s.world) {g : GlobalModelRow}
    (hg : g ∈ s.world.store.globalModels.rows) (hst : g.status = .staged) :
    s.world.store.getStagedModelForRound g.roundId = some g := by
  cases hfound : s.world.store.getStagedModelForRound g.roundId with
  | none =>
    have hlength := congrArg List.length (List.head?_eq_none_iff.mp hfound)
    rw [List.length_insertionSort, List.length_nil, List.length_eq_zero_iff,
      List.filter_eq_nil_iff] at hlength
    exact absurd (hlength g hg) (by simp [hst])
  | some q =>
    obtain ⟨hq, hround, -⟩ := Store.getStagedModelForRound_some hfound
    rw [h.unique q (Table.get?_mem hq) g hg hround]

lemma released_of_staged (h : Consistent app s.world) (hone : OneActive s.world.store)
    {user : Option FLUser} {env : PublishEnv} {g : GlobalModelRow} {r : RoundRow} {merged : Bytes}
    (hperm : Permitted user "fl_aggregate_round") (hfit : Host.bindInt g.roundId = .ok g.roundId)
    (hr : s.world.store.getRound g.roundId = some r) (hg : g ∈ s.world.store.globalModels.rows)
    (hst : g.status = .staged) (hsoak : g.stagedUntil ≤ env.now)
    (hfile : s.world.files g.modelPath = some merged) :
    Released g.roundId merged (next app (.publish user g.roundId env) s).world := by
  have hfound := Store.mem_globalModels.mp hg
  have hspec : (publishRoundModel app user g.roundId env).wp
      (fun _ t => (∃ username, t.store.getGlobalModel g.versionId =
          some (Store.promotedRow username env.promotedAt g)) ∧ t.files = s.world.files)
        s.world := by
    unfold publishRoundModel
    apply wp_flRequire_bind (fun hno => absurd hperm hno)
    intro u _ _
    apply wp_requireRound_ok hfit hr
    apply wp_query_bind
    apply wp_orRaise_bind_of (getStagedModelForRound_eq h hg hst)
    apply wp_ensure_bind_of (by linarith)
    refine wp_insert_bind (wp_execute_bind ?_)
    have hget := Store.getGlobalModel_promoteGlobalModel s.world.store env.promotedAt
      (by rw [hfound]; rfl) u.username g.versionId
    rw [if_pos rfl, hfound] at hget
    apply wp_orRaise_bind (fun _ => ⟨⟨_, hget⟩, rfl⟩)
    intro gm _
    apply wp_log_bind
    exact ⟨⟨_, hget⟩, rfl⟩
  obtain ⟨⟨username, hpromoted⟩, hfiles⟩ := hspec
  refine ⟨_, getActiveGlobalModel_eq (oneActive_next app s _ hone) (Table.get?_mem hpromoted) rfl,
    rfl, ?_⟩
  exact (congrFun hfiles _).trans hfile

lemma Aggregated.stagedRow {w t : World} {user : Option FLUser} {env : AggregateEnv}
    {resp : AggregateResponse} (done : Aggregated app user k env w resp t) :
    ∃ g ∈ t.store.globalModels.rows, g.roundId = k ∧ g.status = .staged ∧
      g.stagedUntil = env.stagedNow + done.row.window ∧ t.files g.modelPath = some done.bytes := by
  have hversion := @getGlobalModel_stagedStore app done.row k
    (w.store.getAcceptedModels k).length done.gate done.bytes done.info env done.scoredWorld.store
  rw [← done.store] at hversion
  refine ⟨_, Table.get?_mem hversion, rfl, rfl, rfl, ?_⟩
  rw [done.files]
  exact Function.update_self _ _ _

/-- The clock of an aggregation, and XGBoost's opinion of every model. -/
def aggregateAt (t accuracy : ℚ) : AggregateEnv where
  now := t
  score := { judge := fun _ _ => .scored accuracy, scoredAt := fun _ => t, issuedAt := fun _ => "" }
  stagedNow := t
  createdAt := t
  schemaLoggedAt := .ofInt 0
  loggedAt := .ofInt 0

def publishAt (t : ℚ) : PublishEnv where
  now := t
  promotedAt := t
  completedAt := t
  loggedAt := .ofInt 0

/-- Aggregated alone after its window, and published after another one, the model of a round is
released. -/
lemma release_possible {before : List Event} {settings : TrustSettings} {user : Option FLUser}
    {r : RoundRow} {c : Store.AcceptedModel} {org : OrgRow} {accuracy t u : ℚ}
    {modelBytes merged : Bytes} (hperm : Permitted user "fl_aggregate_round")
    (hfit : Host.bindInt k = .ok k) (hr : (after app before).world.store.getRound k = some r)
    (hrun : r.status = .running) (htrust : app.trust = some settings)
    (hcap : 0 < settings.maxNumExamples)
    (hlone : (after app before).world.store.getAcceptedModels k = [c])
    (hfile : (after app before).world.files c.modelPath = some modelBytes)
    (horg : (after app before).world.store.getOrg c.orgId = some org)
    (hgood : GoodStanding (app.trustManager settings) org accuracy)
    (hmodel : GoodModel app.python modelBytes merged) (hintake : r.startedAt + r.window ≤ t)
    (hsoak : t + r.window ≤ u) :
    Released k merged (after app (before ++
      [.aggregate user k (aggregateAt t accuracy), .publish user k (publishAt u)])).world := by
  obtain ⟨weight, hweight, htrusted⟩ := @trustedIn_lone app (after app before).world settings k
    (aggregateAt t accuracy) c modelBytes org accuracy htrust hcap hlone hfile horg hgood rfl
  have due : Due user k (aggregateAt t accuracy) (after app before).world :=
    ⟨hperm, hfit, r, hr, hrun, hintake⟩
  obtain ⟨resp, -, done, hbytes⟩ := aggregateRound_lone due hmodel hweight htrusted
  have hrow : done.row = r := Option.some.inj (done.found.symm.trans hr)
  obtain ⟨g, hg, rfl, hst, huntil, hmerged⟩ := done.stagedRow
  have hconsistent := Consistent.run app
    (before ++ [.aggregate user g.roundId (aggregateAt t accuracy)])
  have hone := oneActive_run app (before ++ [.aggregate user g.roundId (aggregateAt t accuracy)])
  have hend : g.stagedUntil ≤ (publishAt u).now := by
    rw [huntil, hrow]
    exact hsoak
  rw [hbytes] at hmerged
  rw [after_concat] at hconsistent hone
  rw [after_append]
  exact released_of_staged hconsistent hone hperm hfit done.getRound hg hst hend hmerged

end Release

/-! ### From every state -/

section Progress

variable {app : App} {es : List Event} {k : ℤ} {merged modelBytes : Bytes}

/-- Whoever authenticates is served these bytes as the model of the round. -/
def ServesModel (app : App) (k : ℤ) (merged : Bytes) (w : World) : Prop :=
  ∀ req env caller, getAuthenticatedOrgId app req w env.authAt = .ok caller →
    ∃ m version, (getActiveGlobalModel app req env w).1 = .ok (m, version) ∧
      Carries app w k merged m

lemma Released.servesModel (hkey : app.coordPriv.isSome = true)
    (h : Released k merged (after app es).world) :
    ServesModel app k merged (after app es).world := by
  intro req env caller hauth
  obtain ⟨g, hg, hround, hfile⟩ := h
  have hactive := Store.getActiveGlobalModel_some hg
  have hanswered := (Consistent.run app es).active_answered hkey hauth
    ⟨g, Table.get?_mem hactive.1, hactive.2⟩
  have hone := oneActive_run app es
  cases hres : (getActiveGlobalModel app req env (after app es).world).1 with
  | error e =>
    rw [hres] at hanswered
    cases hanswered
  | ok answer =>
    obtain ⟨m, version⟩ := answer
    obtain ⟨g', bytes, hg', hst', hfile', hcarries⟩ := getActiveGlobalModel_ok hres
    obtain rfl : g' = g :=
      hone g' (Table.get?_mem hg') g (Table.get?_mem hactive.1) hst' hactive.2
    rw [hfile] at hfile'
    obtain rfl := Option.some.inj hfile'
    rw [hround] at hcarries
    exact ⟨m, version, rfl, hcarries⟩

lemma not_accepted_of_unopened (h : (after app es).world.store.getRound k = none) :
    ∀ d ∈ (after app es).world.store.contributions.rows, d.roundId = k → d.accepted = false := by
  intro d hd hround
  by_contra hacc
  rw [Bool.not_eq_false] at hacc
  obtain ⟨pre, e, post, p, env, chal, n, rfl, haccepts, rfl⟩ := accepted_origin hd hacc
  obtain ⟨r, hr⟩ := round_of_inFlight (mem_inFlight_of_accepts haccepts)
  obtain ⟨r', hr', -⟩ := opening_run app (e :: post) hr
  rw [← after_append] at hr'
  change p.roundId = k at hround
  rw [hround, h] at hr'
  cases hr'

/-- How a model is brought to publication from the time `t` on. -/
structure Campaign (req : Request) (modelBytes : Bytes) (t : ℚ) where
  issue : ChallengeEnv
  upload : ContributeRequest
  place : ℕ
  aggregatedAt : ℚ
  publishedAt : ℚ
  asked : issue.authAt = t ∧ issue.issuedAt = t
  posted : upload.req = req ∧ upload.authAt = t ∧ upload.upload = modelBytes
  ordered : t ≤ aggregatedAt ∧ aggregatedAt ≤ publishedAt

/-- Its requests: a round `k` is started, the model uploaded, aggregated and published. -/
def Campaign.events {req : Request} {start : StartRoundEnv}
    (c : Campaign req modelBytes start.startedAt) (starter aggregator : Option FLUser)
    (body : StartRoundRequest) (k : ℤ) (accuracy : ℚ) : List Event :=
  [.startRound starter body start, .challenge req k c.issue, .contribute c.upload,
    .resume c.place (finishAt start.startedAt),
    .aggregate aggregator k (aggregateAt c.aggregatedAt accuracy),
    .publish aggregator k (publishAt c.publishedAt)]

/-- From every state of every run, a known client whose org is in good standing can bring a good
model to publication. -/
theorem model_publishable {load : Bytes → Except PyErr CaKey} {client : OrgClient} {priv : Bytes}
    {req : Request} {n : ℤ} {now : String} {starter aggregator : Option FLUser}
    {body : StartRoundRequest} {start : StartRoundEnv} {settings : TrustSettings} {r : OrgRow}
    {accuracy sent : ℚ} (hkey : app.coordPriv.isSome = true) (htrust : app.trust = some settings)
    (hcap : 0 < settings.maxNumExamples) (hstarts : Permitted starter "fl_start_round")
    (haggregates : Permitted aggregator "fl_aggregate_round")
    (hid : (after app es).world.store.rounds.seq + 1 = k) (hfit : Host.bindInt k = .ok k)
    (henough : body.minClients ≤ (invitedOrgs (after app es).world.store body.targetOrgIds).length)
    (hknown : Known app load client priv req start.startedAt (after app es).world)
    (hr : (after app es).world.store.getOrg client.orgId = some r)
    (hgood : GoodStanding (app.trustManager settings) r accuracy)
    (hmodel : GoodModel app.python modelBytes merged)
    (hsize : (modelBytes.length : ℤ) ≤ app.maxModelBytes)
    (hn : Host.bindInt n = .ok n)
    (hsent : submittedAt app.host (.str now) = .ok sent)
    (hdrift : drift start.startedAt sent ≤ 300) :
    ∃ c : Campaign req modelBytes start.startedAt,
      Released k merged (after app (es ++ c.events starter aggregator body k accuracy)).world ∧
      ServesModel app k merged
        (after app (es ++ c.events starter aggregator body k accuracy)).world := by
  have hfresh : (after app es).world.store.getRound k = none := by
    rw [← hid]
    exact AutoTable.get?_seq_succ
  obtain ⟨resp, hresp, hround⟩ := startRound_answered start hstarts henough
  obtain ⟨username, invited, -, hrow, -⟩ := startRound_ok hresp
  rw [hround, hid] at hrow
  have hopened : (after app (es ++ [.startRound starter body start])).world.store.getRound k =
      some (Store.openedRow username (body.params app.observationHours) invited start.startedAt
        resp.roundAnnouncement k) := by
    rw [after_concat]
    exact hrow
  have hstarted : SameOrgs (after app es).world
      (after app (es ++ [.startRound starter body start])).world := by
    rw [after_concat]
    exact sameOrgs_next trivial
  have hnone : ∀ d ∈ (after app (es ++ [.startRound starter body
      start])).world.store.contributions.rows, d.roundId = k → d.accepted = false := by
    have hframe := (next_effect app (after app es) (.startRound starter body start)).frame
    rw [after_concat, hframe.contributions (by simp [Event.writes])]
    exact not_accepted_of_unopened hfresh
  obtain ⟨issue, upload, place, hissueAt, hissuedAt, hreq, hauthAt, hupload, hlone⟩ :=
    upload_possible (hknown.of_sameOrgs hstarted) hfit hopened rfl hnone hsize hn
      ⟨sent, hsent, hdrift⟩
  obtain ⟨m, hmodels, horg, hfile⟩ := hlone.stored
  obtain ⟨row, hrowEq⟩ : ∃ row, row = Store.openedRow username (body.params app.observationHours)
      invited start.startedAt resp.roundAnnouncement k := ⟨_, rfl⟩
  have hstartedAt : row.startedAt = start.startedAt := by rw [hrowEq]; rfl
  have hrunning : row.status = .running := by rw [hrowEq]; rfl
  rw [← hrowEq] at hopened
  have hround : (after app (es ++ [.startRound starter body start] ++ [.challenge req k issue,
      .contribute upload, .resume place (finishAt start.startedAt)])).world.store.getRound k =
      some row := by
    rw [Store.getRound, hlone.rounds]
    exact hopened
  have hrow' : (after app (es ++ [.startRound starter body start] ++ [.challenge req k issue,
      .contribute upload, .resume place (finishAt start.startedAt)])).world.store.getOrg m.orgId =
      some r := by
    rw [horg, Store.getOrg, hlone.orgs.orgs, hstarted.orgs]
    exact hr
  obtain ⟨t, ht, hintake⟩ : ∃ t, start.startedAt ≤ t ∧ start.startedAt + row.window ≤ t :=
    ⟨_, le_max_left _ _, le_max_right _ _⟩
  obtain ⟨u, hu, hsoak⟩ : ∃ u, t ≤ u ∧ t + row.window ≤ u := ⟨_, le_max_left _ _, le_max_right _ _⟩
  have hreleased := release_possible haggregates hfit hround hrunning htrust hcap hmodels hfile
    hrow' hgood hmodel (by rw [hstartedAt]; exact hintake) hsoak
  simp only [List.append_assoc, List.cons_append, List.nil_append] at hreleased
  exact ⟨⟨issue, upload, place, t, u, ⟨hissueAt, hissuedAt⟩, ⟨hreq, hauthAt, hupload⟩, ⟨ht, hu⟩⟩,
    hreleased, hreleased.servesModel hkey⟩

/-- A round that no aggregation gets through. -/
def stuckRound : List Event :=
  binaryUpload ++ [.aggregate (some Sample.admin) 1 (Sample.aggregateEnv allScored)]

/-- With the first round stuck, the org publishes in the second one. -/
theorem model_publishable_stuckRound :
    ∃ (c : Campaign (Sample.present (Sample.certOf "x" [1] 11)) Sample.model
      Sample.startEnv.startedAt) (merged : Bytes),
      Released 2 merged (after Sample.app (stuckRound ++ c.events (some Sample.admin)
        (some Sample.admin) (Sample.roundBody none) 2 1)).world := by
  have hmerges : (mergeXgboostModels Sample.app.python [(Sample.model, 1)]).isOk = true := by
    decide +kernel
  have hschema : (modelFeatureSchema Sample.app.python Sample.model).toOption.map (fun c => c.same c) =
      some true := by decide +kernel
  have horg : ((after Sample.app stuckRound).world.store.getOrg "x").map (fun r =>
      (decide (Sample.app.python.round (3 / 10) ≤ r.trustScore), r.lastAccuracy)) =
        some (true, some 1) := by decide +kernel
  have hkeyOk : ((after Sample.app stuckRound).world.store.getOrgPublicKey "x") =
      some (Sample.ed25519Pem [1]) := by decide +kernel
  obtain ⟨r, hr, hstanding⟩ := Option.map_eq_some_iff.mp horg
  obtain ⟨htrusted, hlast⟩ := Prod.mk.inj hstanding
  obtain ⟨canonical, hcanonical, hsame⟩ := Option.map_eq_some_iff.mp hschema
  cases hmerge : mergeXgboostModels Sample.app.python [(Sample.model, 1)] with
  | error e =>
    rw [hmerge] at hmerges
    cases hmerges
  | ok out =>
    obtain ⟨merged, info⟩ := out
    have hknown : Known Sample.app Exchange.sampleLoad Exchange.sampleOrg [1]
        (Sample.present (Sample.certOf "x" [1] 11)) Sample.startEnv.startedAt
        (after Sample.app stuckRound).world :=
      { caller := by decide +kernel
        signs := Exchange.sampleOrg_signs
        key := ⟨_, hkeyOk, by decide +kernel⟩ }
    have hgood : GoodStanding (Sample.app.trustManager ⟨true, 1000000⟩) r 1 := by
      constructor
      · exact of_decide_eq_true htrusted
      · decide +kernel
      · intro prev hprev
        rw [hlast] at hprev
        obtain rfl := Option.some.inj hprev
        decide +kernel
    have hmodel : GoodModel Sample.app.python Sample.model merged :=
      ⟨⟨canonical, eq_ok_of_toOption hcanonical, hsame⟩, info, hmerge⟩
    obtain ⟨c, hreleased, -⟩ := @model_publishable Sample.app stuckRound 2 merged Sample.model
      Exchange.sampleLoad Exchange.sampleOrg [1] (Sample.present (Sample.certOf "x" [1] 11)) 1
      "1970-01-01T00:01:40+00:00" (some Sample.admin) (some Sample.admin) (Sample.roundBody none)
      Sample.startEnv ⟨true, 1000000⟩ r 1 100 rfl rfl (by decide) ⟨Sample.admin, rfl, by decide⟩
      ⟨Sample.admin, rfl, by decide⟩ (by decide +kernel) rfl (by decide +kernel) hknown hr hgood
      hmodel (by decide +kernel) rfl (by decide +kernel) (by decide +kernel)
    exact ⟨c, merged, hreleased⟩

end Progress

end FlCoordinator
