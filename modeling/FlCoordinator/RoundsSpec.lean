import FlCoordinator.Rounds
import FlCoordinator.StoreSpec

/-!
# What the round handlers do

One lemma per handler of `Rounds`, as for the org handlers.
-/

namespace FlCoordinator

open Lib Handler

section Specs

variable {app : App} {w : World}

/-! ### Shared steps -/

lemma wp_authenticate_bind {β : Type} {req : Request} {now : ℚ} {f : String → Api β}
    {Q : Except Failure β → World → Prop} (hno : ∀ e, Q (.error e) w)
    (hyes : ∀ orgId, getAuthenticatedOrgId app req w now = .ok orgId → (f orgId).wp Q w) :
    (authenticate app req now >>= f).wp Q w := by
  have h : (authenticate app req now).wp
      (fun r t => t = w ∧ r = getAuthenticatedOrgId app req w now) w := by
    unfold authenticate
    apply wp_read_bind
    cases getAuthenticatedOrgId app req w now <;> exact ⟨rfl, rfl⟩
  refine wp_call_bind h (fun e t ht => ?_) fun orgId t ht => ?_
  · obtain ⟨rfl, -⟩ := ht
    exact hno e
  · obtain ⟨rfl, hr⟩ := ht
    exact hyes orgId hr.symm

lemma bindInt_ok {n m : ℤ} (h : Host.bindInt n = .ok m) : m = n := by
  unfold Host.bindInt at h
  split_ifs at h
  exact (Except.ok.inj h).symm

lemma wp_requireRound_cases_bind {β : Type} {roundId : ℤ} {f : RoundRow → Api β}
    {Q : Except Failure β → World → Prop}
    (hwide : ∀ e, Host.bindInt roundId = .error e → Q (.error (.uncaught e)) w)
    (hmissing : Q (.error (.http 404 s!"Round not found: {intStr roundId}")) w)
    (hyes : ∀ r, Host.bindInt roundId = .ok roundId → w.store.getRound roundId = some r →
      (f r).wp Q w) : (requireRound roundId >>= f).wp Q w := by
  unfold requireRound fetchRound
  cases hfit : Host.bindInt roundId with
  | error e => exact hwide e hfit
  | ok id =>
    obtain rfl := bindInt_ok hfit
    change ((orRaise (w.store.getRound id) _ : Api RoundRow) >>= f).wp Q w
    exact wp_orRaise_bind (fun _ => hmissing) fun r hr => hyes r hfit hr

lemma wp_requireRound_fits_bind {β : Type} {roundId : ℤ} {f : RoundRow → Api β}
    {Q : Except Failure β → World → Prop} (hno : ∀ e, Q (.error e) w)
    (hyes : ∀ r, Host.bindInt roundId = .ok roundId → w.store.getRound roundId = some r →
      (f r).wp Q w) : (requireRound roundId >>= f).wp Q w :=
  wp_requireRound_cases_bind (fun e _ => hno (.uncaught e)) (hno _) hyes

lemma wp_requireRound_bind {β : Type} {roundId : ℤ} {f : RoundRow → Api β}
    {Q : Except Failure β → World → Prop} (hno : ∀ e, Q (.error e) w)
    (hyes : ∀ r, w.store.getRound roundId = some r → (f r).wp Q w) :
    (requireRound roundId >>= f).wp Q w :=
  wp_requireRound_fits_bind hno fun r _ => hyes r

lemma wp_authenticate_ok {β : Type} {req : Request} {now : ℚ} {f : String → Api β}
    {Q : Except Failure β → World → Prop} {orgId : String}
    (hauth : getAuthenticatedOrgId app req w now = .ok orgId) (h : (f orgId).wp Q w) :
    (authenticate app req now >>= f).wp Q w := by
  unfold authenticate
  rw [wp_bind, wp_bind, wp_read, hauth]
  exact h

lemma wp_requireRound_ok {β : Type} {roundId : ℤ} {f : RoundRow → Api β}
    {Q : Except Failure β → World → Prop} {r : RoundRow}
    (hfit : Host.bindInt roundId = .ok roundId) (hr : w.store.getRound roundId = some r)
    (h : (f r).wp Q w) : (requireRound roundId >>= f).wp Q w := by
  have hfound : (requireRound roundId).wp (fun row t => row = .ok r ∧ t = w) w := by
    unfold requireRound fetchRound
    rw [hfit]
    refine wp_call_bind (P := fun found t => found = .ok (some r) ∧ t = w) ?_
      (fun e t ht => by cases ht.1) fun found t ht => ?_
    · exact ⟨congrArg Except.ok hr, rfl⟩
    · obtain ⟨hrow, rfl⟩ := ht
      obtain rfl := Except.ok.inj hrow
      exact ⟨rfl, rfl⟩
  apply wp_call_bind hfound (fun e t ht => by cases ht.1)
  intro row t ht
  obtain ⟨hrow, rfl⟩ := ht
  obtain rfl := Except.ok.inj hrow
  exact h

/-! ### Starting a round -/

/-- The announcement of the round `id`, when the coordinator has a key. -/
def announcementOf (app : App) (body : StartRoundRequest) (env : StartRoundEnv)
    (invitedIds : List String) (id : ℤ) : Option (Bytes × String) :=
  app.coordPriv.map (fun coordPriv =>
    let annBytes := buildRoundAnnouncementAttestation id body.epsilon body.numBoostRounds
      invitedIds env.startsAt
    (annBytes, toHex (sign app.host coordPriv annBytes)))

/-- A started round: one new running row with its announcement. -/
structure Started (app : App) (body : StartRoundRequest) (env : StartRoundEnv)
    (s s' : Store) : Prop where
  enough : body.minClients ≤ (invitedOrgs s body.targetOrgIds).length
  store : ∃ username, s' = s.openRound username (body.params app.observationHours)
    (invitedOrgs s body.targetOrgIds).length env.startedAt
    (announcementOf app body env ((invitedOrgs s body.targetOrgIds).map (·.orgId))
      (s.rounds.seq + 1))

lemma startRound_spec (app : App) (w : World) (user : Option FLUser) (body : StartRoundRequest)
    (env : StartRoundEnv) :
    (startRound app user body env).wp
      (fun r t => t.crl = w.crl ∧ t.files = w.files ∧ (((∃ e, r = .error e) ∧ t = w) ∨
        (∃ resp, r = .ok resp) ∧ Started app body env w.store t.store)) w := by
  unfold startRound
  apply wp_flRequire_bind (fun _ e => ⟨rfl, rfl, Or.inl ⟨⟨e, rfl⟩, rfl⟩⟩)
  intro u hu hperm
  apply wp_query_bind
  apply wp_ensure_bind (fun _ => ⟨rfl, rfl, Or.inl ⟨⟨_, rfl⟩, rfl⟩⟩)
  intro henough
  refine wp_insert_bind (wp_execute_bind (wp_log_bind ?_))
  exact ⟨rfl, rfl, Or.inr ⟨⟨_, rfl⟩, henough, u.username, rfl⟩⟩

/-! ### Challenges -/

/-- A challenge issued to an authenticated org for a running round. -/
structure Issued (app : App) (req : Request) (roundId : ℤ) (env : ChallengeEnv) (w : World)
    (s' : Store) : Prop where
  caller : ∃ orgId, getAuthenticatedOrgId app req w env.authAt = .ok orgId ∧
    (w.store.getOrg orgId).isSome ∧
    w.store.issueChallenge orgId roundId env.challenge 600 env.issuedAt = .ok s'
  running : ∃ r, w.store.getRound roundId = some r ∧ r.status = .running

lemma issueRoundChallenge_spec (app : App) (w : World) (req : Request) (roundId : ℤ)
    (env : ChallengeEnv) :
    (issueRoundChallenge app req roundId env).wp
      (fun r t => t.crl = w.crl ∧ t.files = w.files ∧ (((∃ e, r = .error e) ∧ t = w) ∨
        (∃ resp, r = .ok resp) ∧ Issued app req roundId env w t.store)) w := by
  unfold issueRoundChallenge requireRunning
  apply wp_authenticate_bind (fun e => ⟨rfl, rfl, Or.inl ⟨⟨e, rfl⟩, rfl⟩⟩)
  intro orgId hauth
  apply wp_requireRound_bind (fun e => ⟨rfl, rfl, Or.inl ⟨⟨e, rfl⟩, rfl⟩⟩)
  intro r hr
  apply wp_ensure_bind (fun _ => ⟨rfl, rfl, Or.inl ⟨⟨_, rfl⟩, rfl⟩⟩)
  intro hrun
  apply wp_query_bind
  apply wp_ensure_bind (fun _ => ⟨rfl, rfl, Or.inl ⟨⟨_, rfl⟩, rfl⟩⟩)
  intro horg
  apply wp_tryExecute_bind (fun e _ => ⟨rfl, rfl, Or.inl ⟨⟨_, rfl⟩, rfl⟩⟩)
  intro s hs
  exact ⟨rfl, rfl, Or.inr ⟨⟨_, rfl⟩, ⟨orgId, hauth, horg, hs⟩, r, hr, hrun⟩⟩

/-! ### Contributions, before the upload is read -/

/-- What the checks before the suspension establish about a request. -/
structure Screened (app : App) (c : ContributeRequest) (w : World) (p : Pending) : Prop where
  caller : getAuthenticatedOrgId app c.req w c.authAt = .ok p.orgId
  request : p.roundId = c.roundId ∧ p.attBytes = encode c.attestation ∧
    p.signature = c.signature ∧ p.upload = c.upload
  parsed : app.python.loads p.attBytes = .ok p.att
  type : ∃ v, p.att.item "type" = .ok v ∧ v.isStr "fl.contribution.v1" = true
  org : ∃ v, p.att.item "org_id" = .ok v ∧ v.isStr p.orgId = true
  round : ∃ v, p.att.item "round_id" = .ok v ∧ v.toInt = .ok p.roundId
  running : ∃ r, w.store.getRound p.roundId = some r ∧ r.status = .running
  first : w.store.hasAcceptedContribution p.roundId p.orgId = false

lemma checkFields_spec (att : Json) (fields : List String) :
    (checkFields att fields).wp (fun _ t => t = w) w := by
  induction fields with
  | nil => rfl
  | cons f fields ih =>
    refine wp_attempt_bind (fun _ _ => rfl) fun present _ => ?_
    exact wp_ensure_bind (fun _ => rfl) fun _ => ih

lemma contributeStart_spec (app : App) (w : World) (c : ContributeRequest) :
    (contributeStart app c).wp
      (fun r t => t = w ∧ ∀ p, r = .ok p → Screened app c w p) w := by
  have hfail : ∀ e : Failure, w = w ∧
      ∀ p, (Except.error e : Except Failure Pending) = .ok p → Screened app c w p :=
    fun e => ⟨rfl, fun p h => by cases h⟩
  unfold contributeStart requireRunning
  apply wp_authenticate_bind hfail
  intro orgId hauth
  apply wp_attempt_bind (fun _ _ => hfail _)
  intro att hatt
  refine wp_call_bind (checkFields_spec att requiredFields) (fun e t ht => ?_) fun _ t ht => ?_
  · subst ht
    exact hfail e
  subst ht
  apply wp_attempt_bind (fun _ _ => hfail _)
  intro type htype
  apply wp_ensure_bind (fun _ => hfail _)
  intro htypeStr
  apply wp_attempt_bind (fun _ _ => hfail _)
  intro attOrgId hattOrg
  apply wp_ensure_bind (fun _ => hfail _)
  intro horgStr
  apply wp_attempt_bind (fun _ _ => hfail _)
  intro attRoundId hattRound
  apply wp_attempt_bind (fun _ _ => hfail _)
  intro attRound hint
  apply wp_ensure_bind (fun _ => hfail _)
  intro hround
  subst hround
  apply wp_requireRound_bind hfail
  intro r hr
  apply wp_ensure_bind (fun _ => hfail _)
  intro hrun
  apply wp_query_bind
  apply wp_ensure_bind (fun _ => hfail _)
  intro hdup
  refine ⟨rfl, fun p hp => ?_⟩
  cases hp
  exact ⟨hauth, ⟨rfl, rfl, rfl, rfl⟩, hatt, ⟨_, htype, htypeStr⟩, ⟨_, hattOrg, horgStr⟩,
    ⟨_, hattRound, hint⟩, ⟨r, hr, hrun⟩, hdup⟩

/-! ### Contributions, after the upload is read -/

/-- The checks after the suspension, on the state they run in: the upload has the claimed hash
and size, the claimed time is fresh, `chal` is a live challenge of this org and round, the key
now registered verifies the attestation, and the count fits its column. -/
structure Evidence (app : App) (p : Pending) (env : ContributeEnv) (w : World)
    (chal : ChallengeRow) (numExamples : ℤ) : Prop where
  size : (p.upload.length : ℤ) ≤ app.maxModelBytes
  hash : ∃ v, p.att.item "model_sha256" = .ok v ∧ v.isStr (app.host.sha256hex p.upload) = true
  fresh : ∃ v sent, p.att.item "submitted_at" = .ok v ∧ submittedAt app.host v = .ok sent ∧
    drift env.checkedAt sent ≤ 300
  named : ∃ v, p.att.item "challenge" = .ok v ∧ app.host.bindText v = .ok (some chal.challenge)
  stored : w.store.challenges.get? chal.challenge = some chal
  bound : chal.orgId = p.orgId ∧ chal.roundId = p.roundId
  live : chal.consumed = false ∧ env.consumedAt < chal.expiresAt
  signed : ∃ pem pub sig, w.store.getOrgPublicKey p.orgId = some pem ∧
    publicKeyFromPem app.host (encode pem) = .ok pub ∧ fromHex p.signature = some sig ∧
    verify app.host pub p.attBytes sig = true
  count : ∃ v, p.att.item "num_examples" = .ok v ∧ v.toInt = .ok numExamples ∧
    Host.bindInt numExamples = .ok numExamples

/-- A suspended request that would be accepted if it went on now. -/
def Admissible (app : App) (p : Pending) (env : ContributeEnv) (w : World) : Prop :=
  ∃ chal numExamples, Evidence app p env w chal numExamples

/-- What an accepted contribution records. -/
def acceptedContribution (app : App) (p : Pending) (challenge : String) (numExamples : ℤ) :
    Store.Contribution where
  roundId := p.roundId
  orgId := p.orgId
  modelSha256 := app.host.sha256hex p.upload
  numExamples
  modelPath := some (contributionPath app.modelDir p.roundId p.orgId (app.host.sha256hex p.upload))
  signedAttestation := p.attBytes
  signatureHex := p.signature
  challenge
  accepted := true
  rejectionReason := none

/-- What a contribution with a wrong signature records. -/
def rejectedContribution (app : App) (p : Pending) (challenge : String) (numExamples : ℤ) :
    Store.Contribution where
  roundId := p.roundId
  orgId := p.orgId
  modelSha256 := app.host.sha256hex p.upload
  numExamples
  modelPath := none
  signedAttestation := p.attBytes
  signatureHex := p.signature
  challenge
  accepted := false
  rejectionReason := some "signature verification failed"

/-- A suspended request that would consume the challenge `challenge` if it went on now: it gets as
far as the store's conditional update, and the update succeeds. -/
structure ConsumesChallenge (app : App) (p : Pending) (env : ContributeEnv) (w : World)
    (challenge : String) : Prop where
  size : (p.upload.length : ℤ) ≤ app.maxModelBytes
  hash : ∃ v, p.att.item "model_sha256" = .ok v ∧ v.isStr (app.host.sha256hex p.upload) = true
  fresh : ∃ v sent, p.att.item "submitted_at" = .ok v ∧ submittedAt app.host v = .ok sent ∧
    drift env.checkedAt sent ≤ 300
  named : ∃ v, p.att.item "challenge" = .ok v ∧ app.host.bindText v = .ok (some challenge)
  granted : (w.store.consumeChallenge (some challenge) p.orgId p.roundId env.consumedAt).1 = none

lemma Evidence.consumesChallenge {p : Pending} {env : ContributeEnv} {chal : ChallengeRow} {n : ℤ}
    (h : Evidence app p env w chal n) : ConsumesChallenge app p env w chal.challenge :=
  ⟨h.size, h.hash, h.fresh, h.named,
    Store.consumeChallenge_live h.stored ⟨h.bound.1, h.bound.2, h.live.1, h.live.2⟩⟩

/-- The files after a resumed request: as they were, or with its upload stored. -/
def UploadFiles (app : App) (p : Pending) (w t : World) : Prop :=
  t.files = w.files ∨ t.files = Function.update w.files
    (contributionPath app.modelDir p.roundId p.orgId (app.host.sha256hex p.upload)) (some p.upload)

/-- The outcomes of the second half of a contribution request. -/
inductive FinishOutcome (app : App) (p : Pending) (env : ContributeEnv) (w : World) :
    Except Failure ContributionResponse → World → Prop
  | refused (e : Failure) (no : ∀ challenge, ¬ConsumesChallenge app p env w challenge) :
      FinishOutcome app p env w (.error e) w
  | burned (e : Failure) (t : World) (no : ¬Admissible app p env w) (challenge : String)
      (consumes : ConsumesChallenge app p env w challenge)
      (store : t.store = w.store.consumeChallengeRow challenge env.consumedAt)
      (files : UploadFiles app p w t)
      (crl : t.crl = w.crl) : FinishOutcome app p env w (.error e) t
  | rejected (e : Failure) (t : World) (no : ¬Admissible app p env w) (challenge : String) (n : ℤ)
      (consumes : ConsumesChallenge app p env w challenge)
      (store : t.store = ((w.store.consumeChallengeRow challenge env.consumedAt).recordContribution
        (rejectedContribution app p challenge n) env.recordedAt).2)
      (files : t.files = w.files)
      (crl : t.crl = w.crl) : FinishOutcome app p env w (.error e) t
  | accepted (resp : ContributionResponse) (t : World) (chal : ChallengeRow) (n : ℤ)
      (evidence : Evidence app p env w chal n)
      (store : t.store =
        ((w.store.consumeChallengeRow chal.challenge env.consumedAt).recordContribution
          (acceptedContribution app p chal.challenge n) env.recordedAt).2)
      (files : t.files = Function.update w.files
        (contributionPath app.modelDir p.roundId p.orgId (app.host.sha256hex p.upload))
        (some p.upload))
      (crl : t.crl = w.crl) : FinishOutcome app p env w (.ok resp) t

lemma recordRow_spec {p : Pending} {sha challenge : String} {accepted : Bool}
    {modelPath rejectionReason : Option String} {now : ℚ} (v : World) :
    (recordRow p sha challenge accepted modelPath rejectionReason now).wp
      (fun r t =>
        ((∃ e, r = .error e) ∧ t = v ∧ ¬∃ x n, p.att.item "num_examples" = .ok x ∧
          x.toInt = .ok n ∧ Host.bindInt n = .ok n) ∨
        ∃ x n, p.att.item "num_examples" = .ok x ∧ x.toInt = .ok n ∧ Host.bindInt n = .ok n ∧
          (∃ id, r = .ok id) ∧ t = v.setStore (v.store.recordContribution
            { roundId := p.roundId, orgId := p.orgId, modelSha256 := sha, numExamples := n,
              modelPath, signedAttestation := p.attBytes, signatureHex := p.signature, challenge,
              accepted, rejectionReason } now).2) v := by
  unfold recordRow
  refine wp_attempt_bind (fun e he => Or.inl ⟨⟨_, rfl⟩, rfl, ?_⟩) fun x hx => ?_
  · rintro ⟨x, n, hx, -⟩
    rw [he] at hx
    cases hx
  refine wp_attempt_bind (fun e he => Or.inl ⟨⟨_, rfl⟩, rfl, ?_⟩) fun n hn => ?_
  · rintro ⟨y, n, hy, hn, -⟩
    rw [hx] at hy
    cases hy
    rw [he] at hn
    cases hn
  refine wp_attempt_bind (fun e he => Or.inl ⟨⟨_, rfl⟩, rfl, ?_⟩) fun m hm => ?_
  · rintro ⟨y, k, hy, hk, hfit⟩
    rw [hx] at hy
    cases hy
    rw [hn] at hk
    cases hk
    rw [he] at hfit
    cases hfit
  obtain rfl := bindInt_ok hm
  exact Or.inr ⟨x, m, hx, hn, hm, ⟨_, rfl⟩, rfl⟩

/-- The second half of a contribution accepts exactly the admissible requests. -/
theorem contributeFinish_spec {p : Pending} {env : ContributeEnv} :
    (contributeFinish app p env).wp (FinishOutcome app p env w) w := by
  unfold contributeFinish
  apply wp_ensure_bind (fun h => .refused _ fun _ hc => h hc.size)
  intro hsize
  refine wp_attempt_bind (fun e he => .refused _ fun _ hc => ?_) fun claimed hclaimed => ?_
  · obtain ⟨v, hv, -⟩ := hc.hash
    rw [he] at hv
    cases hv
  refine wp_ensure_bind (fun h => .refused _ fun _ hc => ?_) fun hhash => ?_
  · obtain ⟨v, hv, hstr⟩ := hc.hash
    rw [hclaimed] at hv
    cases hv
    exact h hstr
  refine wp_attempt_bind (fun e he => .refused _ fun _ hc => ?_) fun text htext => ?_
  · obtain ⟨v, sent, hv, -⟩ := hc.fresh
    rw [he] at hv
    cases hv
  refine wp_attempt_bind (fun e he => .refused _ fun _ hc => ?_) fun sent hsent => ?_
  · obtain ⟨v, sent, hv, hs, -⟩ := hc.fresh
    rw [htext] at hv
    cases hv
    rw [he] at hs
    cases hs
  refine wp_ensure_bind (fun h => .refused _ fun _ hc => ?_) fun hdrift => ?_
  · obtain ⟨v, sent', hv, hs, hd⟩ := hc.fresh
    rw [htext] at hv
    cases hv
    rw [hsent] at hs
    cases hs
    exact h hd
  refine wp_attempt_bind (fun e he => .refused _ fun _ hc => ?_) fun chal hchal => ?_
  · obtain ⟨v, hv, -⟩ := hc.named
    rw [he] at hv
    cases hv
  refine wp_attempt_bind (fun e he => .refused _ fun _ hc => ?_) fun chalText hbind => ?_
  · obtain ⟨v, hv, hb⟩ := hc.named
    rw [hchal] at hv
    cases hv
    rw [he] at hb
    cases hb
  apply wp_insert_bind
  cases hcons : w.store.consumeChallenge chalText p.orgId p.roundId env.consumedAt with
  | mk err s =>
  refine wp_ensure_bind (fun herr => ?_) fun herr => ?_
  · -- the challenge is refused and nothing has changed
    have hs := Store.consumeChallenge_refused hcons herr
    subst hs
    refine .refused _ fun challenge hc => herr ?_
    obtain ⟨v, hv, hb⟩ := hc.named
    rw [hchal] at hv
    cases hv
    rw [hbind] at hb
    cases hb
    exact (congrArg Prod.fst hcons).symm.trans hc.granted
  change err = none at herr
  subst herr
  -- the challenge is consumed, whatever happens next
  obtain ⟨row, rfl, hrow, horg, hround, hlive, hexp, rfl⟩ := Store.consumeChallenge_ok hcons
  have hconsumes : ConsumesChallenge app p env w row.challenge :=
    ⟨hsize, ⟨claimed, hclaimed, hhash⟩, ⟨text, sent, htext, hsent, hdrift⟩,
      ⟨chal, hchal, hbind⟩, Store.consumeChallenge_live hrow ⟨horg, hround, hlive, hexp⟩⟩
  apply wp_query_bind
  refine wp_orRaise_bind (fun h => .burned _ _ (fun ⟨_, _, ev⟩ => ?_) row.challenge hconsumes rfl
    (Or.inl rfl) rfl)
    fun pem hpem => ?_
  · obtain ⟨pem, pub, sig, hk, -⟩ := ev.signed
    change w.store.getOrgPublicKey p.orgId = none at h
    rw [h] at hk
    cases hk
  change w.store.getOrgPublicKey p.orgId = some pem at hpem
  refine wp_attempt_bind (fun e he => .burned _ _ (fun ⟨_, _, ev⟩ => ?_) row.challenge hconsumes rfl
    (Or.inl rfl) rfl)
    fun pub hpub => ?_
  · obtain ⟨pem', pub, sig, hk, hp, -⟩ := ev.signed
    rw [hpem] at hk
    cases hk
    rw [he] at hp
    cases hp
  refine wp_orRaise_bind (fun h => .burned _ _ (fun ⟨_, _, ev⟩ => ?_) row.challenge hconsumes rfl
    (Or.inl rfl) rfl)
    fun sig hsig => ?_
  · obtain ⟨pem', pub, sig, -, -, hs, -⟩ := ev.signed
    rw [h] at hs
    cases hs
  by_cases hver : verify app.host pub p.attBytes sig = false
  · rw [if_pos hver]
    have hno : ¬Admissible app p env w := by
      rintro ⟨_, _, ev⟩
      obtain ⟨pem', pub', sig', hk, hp, hs, hv⟩ := ev.signed
      rw [hpem] at hk
      cases hk
      rw [hpub] at hp
      cases hp
      rw [hsig] at hs
      cases hs
      rw [hver] at hv
      cases hv
    refine wp_call_bind (recordRow_spec _) (fun e t ht => ?_) fun id t ht => ?_
    · rcases ht with ⟨-, rfl, -⟩ | ⟨_, _, _, _, _, ⟨id, hid⟩, _⟩
      · exact .burned _ _ hno row.challenge hconsumes rfl (Or.inl rfl) rfl
      · cases hid
    · apply wp_log_bind
      rcases ht with ⟨⟨e, he⟩, -⟩ | ⟨x, n, _, _, _, _, rfl⟩
      · cases he
      · exact .rejected _ _ hno row.challenge n hconsumes rfl rfl rfl
  · rw [if_neg hver]
    have hver' : verify app.host pub p.attBytes sig = true := by simpa using hver
    apply wp_writeFile_bind
    refine wp_call_bind (recordRow_spec _) (fun e t ht => ?_) fun id t ht => ?_
    · rcases ht with ⟨-, rfl, hcount⟩ | ⟨_, _, _, _, _, ⟨id, hid⟩, _⟩
      · refine .burned _ _ (fun ⟨_, n, ev⟩ => hcount ?_) row.challenge hconsumes rfl
          (Or.inr rfl) rfl
        obtain ⟨x, hx, hn, hfit⟩ := ev.count
        exact ⟨x, n, hx, hn, hfit⟩
      · cases hid
    rcases ht with ⟨⟨e, he⟩, -⟩ | ⟨x, n, hx, hn, hfit, _, rfl⟩
    · cases he
    have evidence : Evidence app p env w row n :=
      ⟨hsize, ⟨claimed, hclaimed, hhash⟩, ⟨text, sent, htext, hsent, hdrift⟩,
        ⟨chal, hchal, hbind⟩, hrow, ⟨horg, hround⟩, ⟨hlive, hexp⟩,
        ⟨pem, pub, sig, hpem, hpub, hsig, hver'⟩, ⟨x, hx, hn, hfit⟩⟩
    refine wp_attempt_bind (fun e he => ?_) fun y hy => ?_
    · rw [hx] at he
      cases he
    rw [hx] at hy
    cases hy
    refine wp_attempt_bind (fun e he => ?_) fun m hm => ?_
    · rw [hn] at he
      cases he
    apply wp_log_bind
    exact .accepted _ _ row n evidence rfl rfl rfl

lemma consumesChallenge_unique {p : Pending} {env env' : ContributeEnv} {w w' : World}
    {challenge challenge' : String} (h : ConsumesChallenge app p env w challenge)
    (h' : ConsumesChallenge app p env' w' challenge') : challenge = challenge' := by
  obtain ⟨v, hv, hb⟩ := h.named
  obtain ⟨v', hv', hb'⟩ := h'.named
  rw [hv] at hv'
  obtain rfl := Except.ok.inj hv'
  rw [hb] at hb'
  exact Option.some.inj (Except.ok.inj hb')

lemma contributeFinish_marks {p : Pending} {env : ContributeEnv} {challenge : String}
    (h : ConsumesChallenge app p env w challenge) :
    ∃ row, (contributeFinish app p env w).2.store.challenges.get? challenge = some row ∧
      row.consumed = true := by
  obtain ⟨row, hkey, hrow, -⟩ := Store.consumeChallenge_ok (Prod.ext h.granted rfl)
  rw [← Option.some.inj hkey] at hrow
  have hmark : (w.store.consumeChallengeRow challenge env.consumedAt).challenges.get? challenge =
      some { row with consumed := true, consumedAt := some env.consumedAt } := by
    rw [Store.get?_consumeChallengeRow, if_pos rfl, hrow]
    rfl
  have hspec : FinishOutcome app p env w (contributeFinish app p env w).1
      (contributeFinish app p env w).2 := contributeFinish_spec
  generalize (contributeFinish app p env w).1 = r at hspec
  generalize (contributeFinish app p env w).2 = t at hspec
  cases hspec with
  | refused e no => exact absurd h (no challenge)
  | burned e t no burnt consumes store files crl =>
    obtain rfl := consumesChallenge_unique h consumes
    exact ⟨_, by rw [store]; exact hmark, rfl⟩
  | rejected e t no burnt n consumes store files crl =>
    obtain rfl := consumesChallenge_unique h consumes
    exact ⟨_, by rw [store]; exact hmark, rfl⟩
  | accepted resp t chal n evidence store files crl =>
    obtain rfl := consumesChallenge_unique h evidence.consumesChallenge
    exact ⟨_, by rw [store]; exact hmark, rfl⟩

end Specs

end FlCoordinator
