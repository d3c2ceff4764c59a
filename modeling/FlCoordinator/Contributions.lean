import FlCoordinator.Changes
import FlCoordinator.Sample

/-!
# What an accepted contribution stands for

The rows of `contributions` with `accepted = 1`, over every run and every schedule of the
suspended uploads: how many there are for a round and an org, what was checked for each, and who
could send it.
-/

namespace FlCoordinator

open Lib

section Requests

variable {app : App}

/-- A suspended request came in at an earlier step, and passed the first checks there. -/
theorem received_of_inFlight {es : List Event} {p : Pending} (h : p ∈ (after app es).inFlight) :
    ∃ pre c post, es = pre ++ .contribute c :: post ∧ Screened app c (after app pre).world p := by
  obtain ⟨pre, e, post, rfl, c, rfl, hc⟩ := run_origin (next app) (s := init app)
    (F := fun s => p ∈ s.inFlight)
    (G := fun s e => ∃ c, e = .contribute c ∧ Screened app c s.world p) (by simp [init])
    (fun _ _ => mem_inFlight_next) es h
  exact ⟨pre, c, post, rfl, hc⟩

lemma opening_run (app : App) {s : Sys} {k : ℤ} {r : RoundRow} (es : List Event)
    (h : s.world.store.getRound k = some r) :
    ∃ r', (Lib.run (next app) s es).world.store.getRound k = some r' ∧ r'.opening = r.opening :=
  run_invariant_all (next app)
    (I := fun t => ∃ r', t.world.store.getRound k = some r' ∧ r'.opening = r.opening)
    (fun t e ⟨r', hr', hkept⟩ => by
      obtain ⟨r'', hr'', hkept'⟩ := (next_effect app t e).opening hr'
      exact ⟨r'', hr'', hkept'.trans hkept⟩) ⟨r, h, rfl⟩ es

lemma announceAttestation_of_opening {r r' : RoundRow} (h : r'.opening = r.opening) :
    r'.announceAttestation = r.announceAttestation := congrArg Prod.snd h

lemma round_of_inFlight {es : List Event} {p : Pending} (h : p ∈ (after app es).inFlight) :
    ∃ r, (after app es).world.store.getRound p.roundId = some r := by
  obtain ⟨pre, c, post, rfl, hc⟩ := received_of_inFlight h
  obtain ⟨r, hr, -⟩ := hc.running
  obtain ⟨r', hr', -⟩ := opening_run app (.contribute c :: post) hr
  exact ⟨r', by rw [after_append]; exact hr'⟩

lemma mem_inFlight_of_accepts {s : Sys} {e : Event} {p : Pending} {env : ContributeEnv}
    {chal : ChallengeRow} {n : ℤ} (h : Accepts app s e p env chal n) : p ∈ s.inFlight := by
  obtain ⟨i, -, hp⟩ := h.event
  exact List.mem_of_getElem? hp

lemma contribution_run {s : Sys} {c : ContributionRow} (es : List Event)
    (h : c ∈ s.world.store.contributions.rows) :
    c ∈ (Lib.run (next app) s es).world.store.contributions.rows :=
  run_invariant_all (next app) (I := fun t => c ∈ t.world.store.contributions.rows)
    (fun _ e h => (next_effect _ _ e).contribution_kept h) h es

/-- An accepted row was recorded by a step that accepts a request. -/
theorem accepted_origin {es : List Event} {c : ContributionRow}
    (h : c ∈ (after app es).world.store.contributions.rows) (hacc : c.accepted = true) :
    ∃ pre e post p env chal n, es = pre ++ e :: post ∧
      Accepts app (after app pre) e p env chal n ∧
      c = acceptedRow app (after app pre) p env chal n := by
  obtain ⟨pre, e, post, hes, p, env, chal, n, hp, hc⟩ := run_origin (next app) (s := init app)
    (F := fun s => c ∈ s.world.store.contributions.rows)
    (G := fun s e => ∃ p env chal n, Accepts app s e p env chal n ∧
      c = acceptedRow app s p env chal n) (by simp [init, Store.empty])
    (fun s e h => by
      rcases (next_effect app s e).contribution h with h | h | h
      · exact Or.inl h
      · rw [hacc] at h
        cases h
      · exact Or.inr h) es h
  exact ⟨pre, e, post, p, env, chal, n, hes, hp, hc⟩

end Requests

/-! ### One accepted contribution for each round and org -/

section Unique

variable {app : App}

/-- At most one accepted row for each round and org. -/
def UniqueAccepted (s : Store) : Prop :=
  ∀ c ∈ s.contributions.rows, ∀ d ∈ s.contributions.rows, c.accepted = true → d.accepted = true →
    c.roundId = d.roundId → c.orgId = d.orgId → c = d

/-- A request that `e` accepts finds no accepted row of its round and org. -/
def FirstOfOrg (app : App) (s : Sys) (e : Event) : Prop :=
  ∀ p env chal n, Accepts app s e p env chal n →
    s.world.store.hasAcceptedContribution p.roundId p.orgId = false

/-- Two uploads of one org to one round are never suspended together so that both pass the checks
left when they are resumed, one after the other. -/
def NoOverlap (app : App) (es : List Event) : Prop :=
  ∀ pre i env mid j env' post p q,
    es = pre ++ .resume i env :: (mid ++ .resume j env' :: post) →
    p.roundId = q.roundId → p.orgId = q.orgId →
    (after app pre).inFlight[i]? = some p →
    q ∈ (after app (pre ++ [.resume i env])).inFlight →
    (after app (pre ++ .resume i env :: mid)).inFlight[j]? = some q →
    Admissible app p env (after app pre).world →
    ¬Admissible app q env' (after app (pre ++ .resume i env :: mid)).world

lemma unique_next {s : Sys} {e : Event} (h : UniqueAccepted s.world.store)
    (hfirst : FirstOfOrg app s e) : UniqueAccepted (next app e s).world.store := by
  -- a new accepted row has no fellow among the old ones
  have hnew : ∀ {p env chal n d}, Accepts app s e p env chal n →
      d ∈ s.world.store.contributions.rows → d.accepted = true →
      (acceptedRow app s p env chal n).roundId = d.roundId →
      (acceptedRow app s p env chal n).orgId ≠ d.orgId := by
    intro p env chal n d hp hd hacc hround horg
    have hhas : s.world.store.hasAcceptedContribution p.roundId p.orgId = true :=
      Store.hasAcceptedContribution_iff.mpr ⟨d, hd, hround.symm, horg.symm, hacc⟩
    rw [hfirst p env chal n hp] at hhas
    cases hhas
  intro c hc d hd hcacc hdacc hround horg
  have heffect := next_effect app s e
  rcases heffect.contribution hc with hc | hc | ⟨p, env, chal, n, hp, rfl⟩
  · rcases heffect.contribution hd with hd | hd | ⟨q, env', chal', n', hq, rfl⟩
    · exact h c hc d hd hcacc hdacc hround horg
    · rw [hdacc] at hd
      cases hd
    · exact absurd horg.symm (hnew hq hc hcacc hround.symm)
  · rw [hcacc] at hc
    cases hc
  · rcases heffect.contribution hd with hd | hd | ⟨q, env', chal', n', hq, rfl⟩
    · exact absurd horg (hnew hp hd hdacc hround)
    · rw [hdacc] at hd
      cases hd
    · -- one event resumes one request
      obtain ⟨i, hi, hpi⟩ := hp.event
      obtain ⟨j, hj, hqj⟩ := hq.event
      rw [hi] at hj
      obtain ⟨rfl, rfl⟩ := Event.resume.inj hj
      rw [hpi] at hqj
      obtain rfl := Option.some.inj hqj
      obtain ⟨rfl, rfl⟩ := evidence_unique hp.evidence hq.evidence
      rfl

lemma not_unique_next {s : Sys} {e : Event} {p : Pending} {env : ContributeEnv}
    {chal : ChallengeRow} {n : ℤ} (hp : Accepts app s e p env chal n)
    (hhas : s.world.store.hasAcceptedContribution p.roundId p.orgId = true) :
    ¬UniqueAccepted (next app e s).world.store := by
  obtain ⟨c, hc, hround, horg, hacc⟩ := Store.hasAcceptedContribution_iff.mp hhas
  intro h
  have heq := h c ((next_effect _ _ e).contribution_kept hc) _ hp.recorded.1 hacc rfl hround horg
  have hid := s.world.store.contributions.bounded c hc
  rw [heq] at hid
  exact absurd hid (by simp [acceptedRow, Store.Contribution.row])

lemma accepted_run {s : Sys} {k : ℤ} {orgId : String} (es : List Event)
    (h : s.world.store.hasAcceptedContribution k orgId = true) :
    (Lib.run (next app) s es).world.store.hasAcceptedContribution k orgId = true := by
  obtain ⟨c, hc, hcols⟩ := Store.hasAcceptedContribution_iff.mp h
  exact Store.hasAcceptedContribution_iff.mpr ⟨c, contribution_run es hc, hcols⟩

/-- The check before the suspension lets no upload in once one of its org is accepted: an upload
that is suspended later was suspended then. -/
lemma inFlight_of_accepted {s : Sys} {q : Pending} (es : List Event)
    (hhas : s.world.store.hasAcceptedContribution q.roundId q.orgId = true)
    (h : q ∈ (Lib.run (next app) s es).inFlight) : q ∈ s.inFlight := by
  by_contra hnot
  obtain ⟨pre, e, post, -, c, -, hscreen⟩ := run_origin (next app) (F := fun t => q ∈ t.inFlight)
    (G := fun t e => ∃ c, e = .contribute c ∧ Screened app c t.world q) hnot
    (fun _ _ => mem_inFlight_next) es h
  have hfirst := hscreen.first
  rw [accepted_run pre hhas] at hfirst
  cases hfirst

/-- An upload that finds an accepted row of its round and org overlapped with the one that left
the row. -/
lemma first_of_noOverlap {es pre post : List Event} {e : Event} (h : NoOverlap app es)
    (hes : es = pre ++ e :: post) : FirstOfOrg app (after app pre) e := by
  intro q env' chal' n' hq
  by_contra hhas
  rw [Bool.not_eq_false] at hhas
  obtain ⟨c, hc, hround, horg, hacc⟩ := Store.hasAcceptedContribution_iff.mp hhas
  obtain ⟨pre, e₁, mid, p, env, chal, n, rfl, hp, rfl⟩ := accepted_origin hc hacc
  obtain ⟨i, rfl, hi⟩ := hp.event
  obtain ⟨j, rfl, hj⟩ := hq.event
  have htaken : (after app (pre ++ [.resume i env])).world.store.hasAcceptedContribution
      q.roundId q.orgId = true := by
    rw [after_concat]
    exact Store.hasAcceptedContribution_iff.mpr ⟨_, hp.recorded.1, hround, horg, hacc⟩
  have hsuspended : q ∈ (after app (pre ++ [.resume i env])).inFlight := by
    apply inFlight_of_accepted mid htaken
    rw [← after_append, List.append_assoc, List.singleton_append]
    exact List.mem_of_getElem? hj
  exact h pre i env mid j env' post p q (by rw [hes]; simp) hround horg hi hsuspended hj
    ⟨chal, n, hp.evidence⟩ ⟨chal', n', hq.evidence⟩

/-- Every state of a run has at most one accepted contribution for each round and org, exactly
when no two uploads of an org to a round are suspended together and both pass the checks that are
left. -/
theorem uniqueAccepted_iff (app : App) (es : List Event) :
    (∀ pre post, es = pre ++ post → UniqueAccepted (after app pre).world.store) ↔
      NoOverlap app es := by
  constructor
  · rintro h pre i env mid j env' post p q hes hround horg hi - hj ⟨chal, n, hp⟩ ⟨chal', n', hq⟩
    have hpacc : Accepts app (after app pre) (.resume i env) p env chal n := ⟨⟨i, rfl, hi⟩, hp⟩
    have hqacc : Accepts app (after app (pre ++ .resume i env :: mid)) (.resume j env') q env'
        chal' n' := ⟨⟨j, rfl, hj⟩, hq⟩
    have hhas : (after app (pre ++ .resume i env :: mid)).world.store.hasAcceptedContribution
        q.roundId q.orgId = true := by
      rw [after_append]
      exact accepted_run mid (Store.hasAcceptedContribution_iff.mpr
        ⟨_, hpacc.recorded.1, hround, horg, rfl⟩)
    apply not_unique_next hqacc hhas
    rw [← after_concat]
    exact h _ post (by rw [hes]; simp)
  · rintro h pre post hes
    refine run_invariant (next app) (I := fun s => UniqueAccepted s.world.store)
      (A := FirstOfOrg app) (fun s e => unique_next) (by simp [UniqueAccepted, init, Store.empty])
      pre fun p hp => ?_
    obtain ⟨before, rest, hpre, hstate⟩ := (mem_visits _).mp hp
    have hsplit : es = before ++ p.2 :: (rest ++ post) := by rw [hes, hpre]; simp
    rw [hstate]
    exact first_of_noOverlap h hsplit

/-- Two uploads with a challenge each pass the first checks before either is recorded. -/
def overlappingUploads : List Event :=
  [Sample.enroll "x" [1] 11, Sample.start none, Sample.challenge "a" (Sample.certOf "x" [1] 11),
    Sample.challenge "b" (Sample.certOf "x" [1] 11), Sample.contribute "x" "a" [1] 11 [65],
    Sample.contribute "x" "b" [1] 11 [66], Sample.resume, Sample.resume]

/-- Both uploads are accepted. -/
theorem overlapping_uploads_accepted :
    ¬∀ pre post, overlappingUploads = pre ++ post →
      UniqueAccepted (after Sample.app pre).world.store := by
  intro h
  have hunique := h overlappingUploads [] rfl
  have hrows : (after Sample.app overlappingUploads).world.store.contributions.rows.map
      (fun c => (c.contributionId, c.roundId, c.orgId, c.accepted)) =
      [(1, 1, "x", true), (2, 1, "x", true)] := by decide +kernel
  obtain ⟨c, rest, hcons, hc, hrest⟩ := List.map_eq_cons_iff.mp hrows
  obtain ⟨d, rest', hcons', hd, -⟩ := List.map_eq_cons_iff.mp hrest
  simp only [Prod.mk.injEq] at hc hd
  obtain ⟨hcid, hcround, hcorg, hcacc⟩ := hc
  obtain ⟨hdid, hdround, hdorg, hdacc⟩ := hd
  have heq := hunique c (by simp [hcons]) d (by simp [hcons, hcons']) hcacc hdacc
    (hcround.trans hdround.symm) (hcorg.trans hdorg.symm)
  rw [heq, hdid] at hcid
  cases hcid

end Unique

/-! ### The evidence behind an accepted row -/

section Provenance

variable {app : App}

/-- The attestation of a row, its upload and its challenge, as the run that left the row
established them. -/
structure Provenance (app : App) (es : List Event) (c : ContributionRow) where
  /-- The step that records the row resumes `pending`, received earlier as `request`. -/
  pre : List Event
  i : ℕ
  env : ContributeEnv
  post : List Event
  split : es = pre ++ .resume i env :: post
  recorded : c ∉ (after app pre).world.store.contributions.rows ∧
    c ∈ (after app (pre ++ [.resume i env])).world.store.contributions.rows
  pending : Pending
  suspended : (after app pre).inFlight[i]? = some pending
  before : List Event
  request : ContributeRequest
  between : List Event
  received : pre = before ++ .contribute request :: between
  caller : getAuthenticatedOrgId app request.req (after app before).world request.authAt =
    .ok c.orgId
  sent : c.signedAttestation = encode request.attestation ∧ c.signatureHex = request.signature
  /-- The key registered at that moment, of an active org, verifies the stored bytes. -/
  signed : ∃ row pem pub sig, (after app pre).world.store.getOrg c.orgId = some row ∧
    row.status = .active ∧ row.publicKeyPem = some pem ∧
    publicKeyFromPem app.host (encode pem) = .ok pub ∧ fromHex c.signatureHex = some sig ∧
    verify app.host pub c.signedAttestation sig = true
  /-- The fields of the attestation agree with the row. -/
  att : Json
  parsed : app.python.loads c.signedAttestation = .ok att
  type : att.item "type" = .ok (.str "fl.contribution.v1")
  org : att.item "org_id" = .ok (.str c.orgId)
  round : ∃ v, att.item "round_id" = .ok v ∧ v.toInt = .ok c.roundId
  count : ∃ v, att.item "num_examples" = .ok v ∧ v.toInt = .ok c.numExamples
  /-- The bytes in the file have the attested hash. -/
  path : String
  written : c.modelPath = some path ∧
    (after app (pre ++ [.resume i env])).world.files path = some request.upload
  hash : c.modelSha256 = app.host.sha256hex request.upload ∧
    att.item "model_sha256" = .ok (.str c.modelSha256)
  /-- The challenge was issued to this org for this round, and was live and unused until now. -/
  named : ∃ v, att.item "challenge" = .ok v ∧ app.host.bindText v = .ok (some c.challenge)
  live : ∃ chal, (after app pre).world.store.challenges.get? c.challenge = some chal ∧
    chal.orgId = c.orgId ∧ chal.roundId = c.roundId ∧ chal.consumed = false ∧
    env.consumedAt < chal.expiresAt
  unused : ∀ chal, (after app before).world.store.challenges.get? c.challenge = some chal →
    chal.consumed = false
  issued : ∃ pre' req env' post', pre = pre' ++ .challenge req c.roundId env' :: post' ∧
    env'.challenge = c.challenge ∧
    getAuthenticatedOrgId app req (after app pre').world env'.authAt = .ok c.orgId
  /-- The claimed time was fresh. -/
  fresh : ∃ v sent, att.item "submitted_at" = .ok v ∧ submittedAt app.host v = .ok sent ∧
    drift env.checkedAt sent ≤ 300

lemma issued_of_challenge {es : List Event} {challenge : String} {row : ChallengeRow}
    (h : (after app es).world.store.challenges.get? challenge = some row) :
    ∃ pre req env post, es = pre ++ .challenge req row.roundId env :: post ∧
      env.challenge = challenge ∧
      getAuthenticatedOrgId app req (after app pre).world env.authAt = .ok row.orgId := by
  obtain ⟨pre, e, post, rfl, req, env, rfl, hc, hauth⟩ := run_origin (next app) (s := init app)
    (F := fun s => ∃ r, s.world.store.challenges.get? challenge = some r ∧
      r.orgId = row.orgId ∧ r.roundId = row.roundId)
    (G := fun s e => ∃ req env, e = .challenge req row.roundId env ∧ env.challenge = challenge ∧
      getAuthenticatedOrgId app req s.world env.authAt = .ok row.orgId)
    (by simp [init, Store.empty])
    (fun s e ⟨r, hr, horg, hround⟩ => by
      cases (next_effect app s e).challengeMove challenge with
      | kept same => exact Or.inl ⟨r, same ▸ hr, horg, hround⟩
      | issued req env new event drawn caller fresh hnew =>
        rw [hr] at hnew
        obtain rfl := Option.some.inj hnew
        exact Or.inr ⟨req, env, hround ▸ event, drawn, horg ▸ caller⟩
      | consumed old now hold hnew =>
        rw [hr] at hnew
        obtain rfl := Option.some.inj hnew
        exact Or.inl ⟨old, hold, horg, hround⟩) es ⟨row, h, rfl, rfl⟩
  exact ⟨pre, req, env, post, rfl, hc, hauth⟩

lemma consumed_run (app : App) {s : Sys} {challenge : String} {row : ChallengeRow} (es : List Event)
    (h : s.world.store.challenges.get? challenge = some row) (hused : row.consumed = true) :
    ∃ row', (Lib.run (next app) s es).world.store.challenges.get? challenge = some row' ∧
      row'.consumed = true :=
  run_invariant_all (next app)
    (I := fun t => ∃ row', t.world.store.challenges.get? challenge = some row' ∧
      row'.consumed = true)
    (fun t e ⟨row', hrow', hused'⟩ => by
      cases (next_effect app t e).challengeMove challenge with
      | kept same => exact ⟨row', same.trans hrow', hused'⟩
      | issued req env new event drawn caller fresh hnew =>
        rw [hrow'] at fresh
        cases fresh
      | consumed old now hold hnew => exact ⟨_, hnew, rfl⟩) ⟨row, h, hused⟩ es

/-- Every accepted contribution has the evidence the protocol asks for, whatever happened while
its upload was suspended. -/
theorem accepted_provenance {es : List Event} {c : ContributionRow}
    (h : c ∈ (after app es).world.store.contributions.rows) (hacc : c.accepted = true) :
    Nonempty (Provenance app es c) := by
  obtain ⟨pre, e, post, p, env, chal, n, hes, hp, rfl⟩ := accepted_origin h hacc
  obtain ⟨before, request, between, hpre, hscreen⟩ :=
    received_of_inFlight (mem_inFlight_of_accepts hp)
  have hrec := hp.recorded
  obtain ⟨i, rfl, hi⟩ := hp.event
  have hev := hp.evidence
  obtain ⟨pem, pub, sig, hkey, hpub, hsig, hverify⟩ := hev.signed
  obtain ⟨-, row, hrow, hactive, hpem⟩ := Store.getOrgPublicKey_eq_some.mp hkey
  obtain ⟨t, ht, htype⟩ := hscreen.type
  obtain ⟨o, ho, horg⟩ := hscreen.org
  obtain ⟨k, hk, hcount, -⟩ := hev.count
  obtain ⟨v, hv, hhash⟩ := hev.hash
  obtain ⟨hreqRound, hreqBytes, hreqSig, hupload⟩ := hscreen.request
  obtain ⟨pre', req, env', post', hissued, hdrawn, hauth⟩ := issued_of_challenge hev.stored
  obtain ⟨horgChal, hroundChal⟩ := hev.bound
  rw [hroundChal] at hissued
  rw [horgChal] at hauth
  refine ⟨{
    pre, i, env, post
    split := hes
    recorded := ⟨fun hold => ?_, after_concat app pre _ ▸ hrec.1⟩
    pending := p
    suspended := hi
    before, request, between
    received := hpre
    caller := hscreen.caller
    sent := ⟨hreqBytes, hreqSig⟩
    signed := ⟨row, pem, pub, sig, hrow, hactive, hpem, hpub, hsig, hverify⟩
    att := p.att
    parsed := hscreen.parsed
    type := Json.eq_str_of_isStr htype ▸ ht
    org := (Json.eq_str_of_isStr horg).symm ▸ ho
    round := hscreen.round
    count := ⟨k, hk, hcount⟩
    path := contributionPath app.modelDir p.roundId p.orgId (app.host.sha256hex p.upload)
    written := ⟨rfl, ?_⟩
    hash := ⟨hupload ▸ rfl, (Json.eq_str_of_isStr hhash) ▸ hv⟩
    named := hev.named
    live := ⟨chal, hev.stored, horgChal, hroundChal, hev.live.1, hev.live.2⟩
    unused := fun old hold => ?_
    issued := ⟨pre', req, env', post', hissued, hdrawn, hauth⟩
    fresh := hev.fresh }⟩
  · have hid := (after app pre).world.store.contributions.bounded _ hold
    exact absurd hid (by simp [acceptedRow, Store.Contribution.row])
  · rw [after_concat, ← hupload]
    exact hrec.2
  · by_contra hused
    obtain ⟨row', hrow', hused'⟩ := consumed_run app (.contribute request :: between) hold
      (by simpa using hused)
    rw [← after_append, ← hpre] at hrow'
    obtain rfl := Option.some.inj (hev.stored.symm.trans hrow')
    rw [hev.live.1] at hused'
    cases hused'

/-- One org takes part in a round. -/
def singleUpload : List Event :=
  [Sample.enroll "x" [1] 11, Sample.start none, Sample.challenge "a" (Sample.certOf "x" [1] 11),
    Sample.contribute "x" "a" [1] 11 [65], Sample.resume]

theorem accepted_provenance_singleUpload :
    ∃ c, c.orgId = "x" ∧ Nonempty (Provenance Sample.app singleUpload c) := by
  have hrows : (after Sample.app singleUpload).world.store.contributions.rows.map
      (fun c => (c.orgId, c.accepted)) = [("x", true)] := by decide +kernel
  obtain ⟨c, rest, hcons, hc, -⟩ := List.map_eq_cons_iff.mp hrows
  obtain ⟨horg, hacc⟩ := Prod.mk.inj hc
  exact ⟨c, horg, accepted_provenance (by rw [hcons]; simp) hacc⟩

end Provenance

/-! ### Who can contribute -/

section Invitation

variable {app : App}

/-- The coordinator-signed announcement of the round lists the org. -/
def InvitedTo (s : Store) (roundId : ℤ) (orgId : String) : Prop :=
  ∃ r att ids, s.getRound roundId = some r ∧ r.announceAttestation = some att ∧
    readOrgs "invited_orgs" att = some ids ∧ orgId ∈ ids

/-- When the round was opened, the coordinator had its key, the org was active and, if the
request named targets, one of them. -/
def EligibleAtStart (app : App) (pre : List Event) (roundId : ℤ) (orgId : String) : Prop :=
  ∃ before user body env between, pre = before ++ .startRound user body env :: between ∧
    (after app before).world.store.getRound roundId = none ∧
    ((after app (before ++ [.startRound user body env])).world.store.getRound roundId).isSome ∧
    app.coordPriv.isSome ∧
    (∃ row, (after app before).world.store.getOrg orgId = some row ∧ row.status = .active) ∧
    ∀ t ts, body.targetOrgIds = some (t :: ts) → orgId ∈ t :: ts

lemma mem_invitedOrgs {s : Store} {targets : Option (List String)} {orgId : String} :
    orgId ∈ (invitedOrgs s targets).map (·.orgId) ↔
      (∃ row, s.getOrg orgId = some row ∧ row.status = .active) ∧
        ∀ t ts, targets = some (t :: ts) → orgId ∈ t :: ts := by
  have hactive : ∀ row : OrgRow, row ∈ s.listOrgs.filter (fun o => o.status = .active) ↔
      s.getOrg row.orgId = some row ∧ row.status = .active := by
    intro row
    rw [List.mem_filter, Store.listOrgs, (List.perm_insertionSort _ _).mem_iff, decide_eq_true_eq]
    exact and_congr_left fun _ => ⟨Table.get?_of_mem, Table.get?_mem⟩
  have hmem : ∀ row, row ∈ invitedOrgs s targets ↔
      (s.getOrg row.orgId = some row ∧ row.status = .active) ∧
        ∀ t ts, targets = some (t :: ts) → row.orgId ∈ t :: ts := by
    intro row
    unfold invitedOrgs
    rcases targets with - | - | ⟨t, ts⟩
    · simp [hactive]
    · simp [hactive]
    · rw [List.mem_filter, hactive, decide_eq_true_eq]
      refine and_congr_right fun _ => ⟨fun h t' ts' heq => ?_, fun h => h t ts rfl⟩
      exact Option.some.inj heq ▸ h
  rw [List.mem_map]
  constructor
  · rintro ⟨row, hrow, rfl⟩
    obtain ⟨⟨hget, hst⟩, htargets⟩ := (hmem row).mp hrow
    exact ⟨⟨row, hget, hst⟩, htargets⟩
  · rintro ⟨⟨row, hget, hst⟩, htargets⟩
    have horg : row.orgId = orgId := Table.get?_key hget
    subst horg
    exact ⟨row, (hmem row).mpr ⟨⟨hget, hst⟩, htargets⟩, rfl⟩

lemma invited_iff_of_opened {s : Store} {body : StartRoundRequest} {env : StartRoundEnv}
    {username : String} {k : ℤ} {r : RoundRow} {ids : List String} {orgId : String} {n : ℕ}
    (hr : s.getRound k = some r) (hopen : r.opening =
      (Store.openedRow username (body.params app.observationHours) n env.startedAt
        (announcementOf app body env ids k) k).opening) :
    InvitedTo s k orgId ↔ app.coordPriv.isSome ∧ orgId ∈ ids := by
  unfold InvitedTo
  simp only [hr, Option.some.injEq, exists_and_left, exists_eq_left',
    announceAttestation_of_opening hopen, Store.openedRow, announcementOf]
  cases app.coordPriv with
  | none => simp
  | some coordPriv => simp [readOrgs_announcement]

lemma opened_of_round {es : List Event} {k : ℤ} {r : RoundRow}
    (h : (after app es).world.store.getRound k = some r) :
    ∃ before user body env between username, es = before ++ .startRound user body env :: between ∧
      (after app before).world.store.getRound k = none ∧
      ((after app (before ++ [.startRound user body env])).world.store.getRound k).isSome ∧
      r.opening = (Store.openedRow username (body.params app.observationHours)
        (invitedOrgs (after app before).world.store body.targetOrgIds).length env.startedAt
        (announcementOf app body env
          ((invitedOrgs (after app before).world.store body.targetOrgIds).map (·.orgId)) k)
        k).opening := by
  obtain ⟨before, e, between, rfl, user, body, env, username, rfl, hfresh, hnew, hopen⟩ :=
    run_origin (next app) (s := init app)
    (F := fun s => ∃ q, s.world.store.getRound k = some q ∧ q.opening = r.opening)
    (G := fun s e => ∃ user body env username, e = .startRound user body env ∧
      s.world.store.getRound k = none ∧ ((next app e s).world.store.getRound k).isSome ∧
      r.opening = (Store.openedRow username (body.params app.observationHours)
        (invitedOrgs s.world.store body.targetOrgIds).length env.startedAt
        (announcementOf app body env
          ((invitedOrgs s.world.store body.targetOrgIds).map (·.orgId)) k) k).opening)
    (by rintro ⟨q, hq, -⟩; cases hq)
    (fun s e ⟨q, hq, hopen⟩ => by
      cases (next_effect app s e).roundMove k with
      | kept same => exact Or.inl ⟨q, same ▸ hq, hopen⟩
      | opened user body env username event fresh new =>
        have heq := Option.some.inj (hq.symm.trans new)
        exact Or.inr ⟨user, body, env, username, event, fresh, by rw [hq]; rfl, heq ▸ hopen.symm⟩
      | aggregated user env resp event done new =>
        have heq := Option.some.inj (hq.symm.trans new)
        refine Or.inl ⟨done.row, done.found, ?_⟩
        rw [heq] at hopen
        exact hopen
      | completed user env event g staged new =>
        rw [hq] at new
        obtain ⟨q', hq', heq⟩ := Option.map_eq_some_iff.mp new.symm
        refine Or.inl ⟨q', hq', ?_⟩
        rw [← heq] at hopen
        exact hopen) es ⟨r, h, rfl⟩
  exact ⟨before, user, body, env, between, username, rfl, hfresh, after_concat app before _ ▸ hnew,
    hopen⟩

lemma opening_of_start {before between : List Event} {user : Option FLUser}
    {body : StartRoundRequest} {env : StartRoundEnv} {k : ℤ} {r : RoundRow}
    (hfresh : (after app before).world.store.getRound k = none)
    (hsome : ((after app (before ++ [.startRound user body env])).world.store.getRound k).isSome)
    (hr : (after app (before ++ .startRound user body env :: between)).world.store.getRound k =
      some r) :
    ∃ username, r.opening = (Store.openedRow username (body.params app.observationHours)
      (invitedOrgs (after app before).world.store body.targetOrgIds).length env.startedAt
      (announcementOf app body env
        ((invitedOrgs (after app before).world.store body.targetOrgIds).map (·.orgId)) k)
      k).opening := by
  rw [after_concat] at hsome
  cases (next_effect app (after app before) (.startRound user body env)).roundMove k with
  | kept same =>
    rw [same, hfresh] at hsome
    cases hsome
  | opened user' body' env' username event fresh new =>
    cases event
    obtain ⟨r', hr', hopen⟩ := opening_run app between new
    rw [after_append] at hr
    obtain rfl := Option.some.inj (hr'.symm.trans hr)
    exact ⟨username, hopen⟩
  | aggregated user env resp event done new => cases event
  | completed user env event g staged new => cases event

/-- The announcement of an existing round lists exactly the orgs eligible at its start. -/
theorem invitedTo_iff_eligible {pre : List Event} {k : ℤ} {orgId : String} {r : RoundRow}
    (hr : (after app pre).world.store.getRound k = some r) :
    InvitedTo (after app pre).world.store k orgId ↔ EligibleAtStart app pre k orgId := by
  constructor
  · intro h
    obtain ⟨before, user, body, env, between, username, rfl, hfresh, hsome, hopen⟩ :=
      opened_of_round hr
    obtain ⟨hkey, hids⟩ := (invited_iff_of_opened hr hopen).mp h
    obtain ⟨hactive, htargets⟩ := mem_invitedOrgs.mp hids
    exact ⟨before, user, body, env, between, rfl, hfresh, hsome, hkey, hactive, htargets⟩
  · rintro ⟨before, user, body, env, between, rfl, hfresh, hsome, hkey, hactive, htargets⟩
    obtain ⟨username, hopen⟩ := opening_of_start hfresh hsome hr
    exact (invited_iff_of_opened hr hopen).mpr ⟨hkey, mem_invitedOrgs.mpr ⟨hactive, htargets⟩⟩

lemma invitedTo_run {s : Sys} {k : ℤ} {orgId : String} (es : List Event)
    (h : InvitedTo s.world.store k orgId) :
    InvitedTo (Lib.run (next app) s es).world.store k orgId := by
  obtain ⟨r, att, ids, hr, hatt, hids, hmem⟩ := h
  obtain ⟨r', hr', hopen⟩ := opening_run app es hr
  exact ⟨r', att, ids, hr', (announceAttestation_of_opening hopen).trans hatt, hids, hmem⟩

/-- Every accepted contribution of a run belongs to an org that the announcement of its round
lists, exactly when each accepted request comes from an org that was eligible when the round was
opened. -/
theorem accepted_invited_iff (app : App) (es : List Event) :
    (∀ c ∈ (after app es).world.store.contributions.rows, c.accepted = true →
        InvitedTo (after app es).world.store c.roundId c.orgId) ↔
      ∀ pre e post p env chal n, es = pre ++ e :: post →
        Accepts app (after app pre) e p env chal n → EligibleAtStart app pre p.roundId p.orgId := by
  constructor
  · rintro h pre e post p env chal n rfl hp
    obtain ⟨r, hr⟩ := round_of_inFlight (mem_inFlight_of_accepts hp)
    rw [← invitedTo_iff_eligible hr]
    have hrow : acceptedRow app (after app pre) p env chal n ∈
        (after app (pre ++ e :: post)).world.store.contributions.rows := by
      rw [after_append]
      exact contribution_run post hp.recorded.1
    obtain ⟨r', att, ids, hr', hatt, hids, hmem⟩ := h _ hrow rfl
    obtain ⟨r'', hr'', hopen⟩ := opening_run app (e :: post) hr
    rw [after_append] at hr'
    obtain rfl := Option.some.inj (hr''.symm.trans hr')
    exact ⟨r, att, ids, hr, (announceAttestation_of_opening hopen).symm.trans hatt, hids, hmem⟩
  · intro h c hc hacc
    obtain ⟨pre, e, post, p, env, chal, n, rfl, hp, rfl⟩ := accepted_origin hc hacc
    obtain ⟨r, hr⟩ := round_of_inFlight (mem_inFlight_of_accepts hp)
    rw [after_append]
    exact invitedTo_run (e :: post)
      ((invitedTo_iff_eligible hr).mpr (h pre e post p env chal n rfl hp))

/-- A round for `y` alone, to which `x` contributes. -/
def uninvitedUpload : List Event :=
  [Sample.enroll "x" [1] 11, Sample.enroll "y" [2] 12, Sample.start (some ["y"]),
    Sample.challenge "a" (Sample.certOf "x" [1] 11), Sample.contribute "x" "a" [1] 11 [65],
    Sample.resume]

/-- The contribution of the org that was not invited is accepted. -/
theorem uninvited_upload_accepted :
    ¬∀ c ∈ (after Sample.app uninvitedUpload).world.store.contributions.rows, c.accepted = true →
      InvitedTo (after Sample.app uninvitedUpload).world.store c.roundId c.orgId := by
  intro h
  have hrows : (after Sample.app uninvitedUpload).world.store.contributions.rows.map
      (fun c => (c.roundId, c.orgId, c.accepted)) = [(1, "x", true)] := by decide +kernel
  have hann : ((after Sample.app uninvitedUpload).world.store.getRound 1).map
      (fun r => r.announceAttestation.map (readOrgs "invited_orgs")) =
      some (some (some ["y"])) := by decide +kernel
  obtain ⟨c, rest, hcons, hc, -⟩ := List.map_eq_cons_iff.mp hrows
  simp only [Prod.mk.injEq] at hc
  obtain ⟨hround, horg, hacc⟩ := hc
  obtain ⟨r, att, ids, hr, hatt, hids, hmem⟩ := h c (by rw [hcons]; simp) hacc
  rw [hround] at hr
  rw [hr, Option.map_some, hatt, Option.map_some, hids] at hann
  simp only [Option.some.injEq] at hann
  rw [horg, hann] at hmem
  exact absurd hmem (by decide)

end Invitation

end FlCoordinator
