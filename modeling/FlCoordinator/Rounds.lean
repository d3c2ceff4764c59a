import FlCoordinator.Aggregation
import FlCoordinator.Attestation
import FlCoordinator.Middleware
import FlCoordinator.Trust

/-!
# Rounds, contributions and global models

The `/fl/rounds`, `/fl/global-model` and `/fl/models` handlers of `coordinator/api.py`.
`submit_contribution` is split where it awaits the upload.
-/

namespace FlCoordinator

open Lib Handler

/-! ### Starting and announcing a round -/

structure StartRoundRequest where
  epsilon : Decimal
  numBoostRounds : ℤ
  minClients : ℤ
  targetOrgIds : Option (List String)
  observationHours : Option Decimal
  epsilon_range : 0 < epsilon.toRat ∧ epsilon.toRat ≤ 10
  numBoostRounds_range : 1 ≤ numBoostRounds ∧ numBoostRounds ≤ 200
  minClients_range : 1 ≤ minClients ∧ minClients ≤ 100
  observationHours_range : ∀ h ∈ observationHours, 0 ≤ h.toRat ∧ h.toRat ≤ 720

structure StartRoundEnv where
  startedAt : ℚ
  startsAt : String
  loggedAt : Decimal

structure StartRoundResponse where
  roundId : ℤ
  invitedOrgs : List String
  params : RoundParams
  intakeUntil : ℚ
  roundAnnouncement : Option (Bytes × String)
  deriving DecidableEq

/-- The active orgs, restricted to the targets when some are given. -/
def invitedOrgs (s : Store) (targets : Option (List String)) : List OrgRow :=
  let active := s.listOrgs.filter (fun o => o.status = .active)
  match targets with
  | some (t :: ts) => active.filter (fun o => o.orgId ∈ t :: ts)
  | _ => active

/-- The `params` dict of a round. -/
def StartRoundRequest.params (body : StartRoundRequest) (default : Decimal) : RoundParams where
  epsilon := body.epsilon
  numBoostRounds := body.numBoostRounds
  minClients := body.minClients
  targetOrgIds := body.targetOrgIds
  observationHours := body.observationHours.getD default

/-- `POST /rounds/start`. -/
def startRound (app : App) (user : Option FLUser) (body : StartRoundRequest)
    (env : StartRoundEnv) : Api StartRoundResponse := do
  let user ← flRequire user "fl_start_round"
  let invited ← Api.query (fun s => invitedOrgs s body.targetOrgIds)
  ensure (body.minClients ≤ invited.length) (.http 422
    s!"Only {natStr invited.length} active orgs but min_clients={intStr body.minClients}")
  let invitedIds := invited.map (·.orgId)
  let params := body.params app.observationHours
  let roundId ← Api.insert
    (fun s => s.startRound user.username params invited.length env.startedAt)
  let announcement := app.coordPriv.map (fun coordPriv =>
    let annBytes := buildRoundAnnouncementAttestation roundId body.epsilon body.numBoostRounds
      invitedIds env.startsAt
    (annBytes, toHex (sign app.host coordPriv annBytes)))
  Api.execute (fun s =>
    match announcement with
    | some (annBytes, sigHex) => s.setRoundAnnouncement roundId annBytes sigHex
    | none => s)
  Api.log app env.loggedAt "fl.round.start" user.username s!"round_{intStr roundId}" (.obj [
    ("epsilon", Json.ofDecimal body.epsilon),
    ("num_boost_rounds", .int body.numBoostRounds),
    ("invited_orgs", Json.ofStrs invitedIds),
    ("announced", .bool announcement.isSome)])
  pure
    { roundId
      invitedOrgs := invitedIds
      params
      intakeUntil := env.startedAt + params.observationHours.toRat * 3600
      roundAnnouncement := announcement }

/-- `store.get_round`, whose parameter is bound as a 64-bit integer. -/
def fetchRound (roundId : ℤ) : Api (Option RoundRow) := do
  let id ← attempt (Host.bindInt roundId) .uncaught
  Api.query (·.getRound id)

/-- A round that exists, or the 404 of every round endpoint. -/
def requireRound (roundId : ℤ) : Api RoundRow := do
  let found ← fetchRound roundId
  orRaise found (.http 404 s!"Round not found: {intStr roundId}")

def requireRunning (roundId : ℤ) (r : RoundRow) : Api Unit :=
  ensure (r.status = .running)
    (.http 409 s!"Round {intStr roundId} is not running ({r.status.text})")

/-- The caller of an org endpoint. -/
def authenticate (app : App) (req : Request) (now : ℚ) : Api String := do
  let auth ← Handler.read (fun w => getAuthenticatedOrgId app req w now)
  attempt auth id

structure ActiveRound where
  roundId : ℤ
  startedAt : ℚ
  intakeUntil : ℚ
  intakeOpen : Bool
  epsilon : Decimal
  numBoostRounds : ℤ
  deriving DecidableEq

/-- `GET /rounds/active`: running rounds, without those whose targets leave the caller out. -/
def listActiveRoundsForOrg (app : App) (req : Request) (authAt now : ℚ) :
    Api (List ActiveRound) := do
  let orgId ← authenticate app req authAt
  let rounds ← Api.query (·.listRoundsByStatus .running)
  let open' := rounds.filter (fun r =>
    match r.params.targetOrgIds with
    | some (t :: ts) => orgId ∈ t :: ts
    | _ => true)
  pure (open'.map fun r =>
    let intakeUntil := r.startedAt + r.params.observationHours.toRat * 3600
    { roundId := r.roundId
      startedAt := r.startedAt
      intakeUntil
      intakeOpen := decide (now < intakeUntil)
      epsilon := r.params.epsilon
      numBoostRounds := r.params.numBoostRounds })

structure ChallengeEnv where
  authAt : ℚ
  challenge : String
  issuedAt : ℚ

/-- `GET /rounds/{round_id}/challenge`. -/
def issueRoundChallenge (app : App) (req : Request) (roundId : ℤ) (env : ChallengeEnv) :
    Api (String × ℚ) := do
  let orgId ← authenticate app req env.authAt
  let r ← requireRound roundId
  requireRunning roundId r
  let org ← Api.query (·.getOrg orgId)
  ensure org.isSome (.http 403 "Unknown org")
  Api.tryExecute (fun s => s.issueChallenge orgId roundId env.challenge 600 env.issuedAt) .uncaught
  pure (env.challenge, env.issuedAt + 600)

/-- `GET /rounds/{round_id}/announcement`. -/
def getRoundAnnouncement (app : App) (req : Request) (roundId : ℤ) (authAt : ℚ) :
    Api (Bytes × Option String) := do
  let _ ← authenticate app req authAt
  let r ← requireRound roundId
  let ann ← orRaise r.announceAttestation
    (.http 404 s!"Round {intStr roundId} has no signed announcement")
  pure (ann, r.announceSignature)

/-! ### Contributions -/

/-- A contribution request suspended at `await model.read()`. -/
structure Pending where
  roundId : ℤ
  orgId : String
  attBytes : Bytes
  att : Json
  signature : String
  upload : Bytes

structure ContributeRequest where
  req : Request
  roundId : ℤ
  attestation : String
  signature : String
  upload : Bytes
  authAt : ℚ

def requiredFields : List String :=
  ["type", "round_id", "org_id", "model_sha256", "num_examples", "challenge", "submitted_at"]

/-- The loop over the required fields. -/
def checkFields (att : Json) : List String → Api Unit
  | [] => pure ()
  | required :: rest => do
    let present ← attempt (att.contains required) .uncaught
    ensure present (.http 400 s!"attestation missing field: {required}")
    checkFields att rest

/-- Only a `JSONDecodeError` becomes a response. -/
def jsonFailure : PyErr → Failure
  | .jsonDecodeError msg => .http 400 s!"attestation is not valid JSON: {msg}"
  | e => .uncaught e

/-- `POST /rounds/{round_id}/contribute`, up to the point where it awaits the upload. -/
def contributeStart (app : App) (c : ContributeRequest) : Api Pending := do
  let orgId ← authenticate app c.req c.authAt
  -- 1. parse the attestation
  let attBytes := encode c.attestation
  let att ← attempt (app.python.loads attBytes) jsonFailure
  checkFields att requiredFields
  let type ← attempt (att.item "type") .uncaught
  ensure (type.isStr "fl.contribution.v1")
    (.http 400 s!"Unexpected attestation type: {app.host.strOf type}")
  -- 2. the org
  let attOrgId ← attempt (att.item "org_id") .uncaught
  ensure (attOrgId.isStr orgId)
    (.http 403 (s!"attestation.org_id ({app.host.strOf attOrgId}) does not match " ++
      s!"authenticated org ({orgId})"))
  -- 3. the round
  let attRoundId ← attempt (att.item "round_id") .uncaught
  let attRound ← attempt attRoundId.toInt .uncaught
  ensure (attRound = c.roundId)
    (.http 403 (s!"attestation.round_id ({app.host.strOf attRoundId}) does not match " ++
      s!"URL ({intStr c.roundId})"))
  let r ← requireRound c.roundId
  requireRunning c.roundId r
  let dup ← Api.query (·.hasAcceptedContribution c.roundId orgId)
  ensure (dup = false) (.http 409 "Org already has an accepted contribution for this round")
  pure { roundId := c.roundId, orgId, attBytes, att, signature := c.signature, upload := c.upload }

structure ContributeEnv where
  checkedAt : ℚ
  consumedAt : ℚ
  recordedAt : ℚ
  loggedAt : Decimal

structure ContributionResponse where
  contributionId : ℤ
  roundId : ℤ
  orgId : String
  modelSha256 : String
  deriving DecidableEq

/-- The refusal of a wrong hash, whose text slices the claimed one. -/
def hashMismatch (host : Host) (claimed : Json) (actual : String) : Failure :=
  match claimed with
  | .str s => .http 400 (s!"model_sha256 mismatch (expected {hashPrefix s}…, " ++
      s!"got {hashPrefix actual}…)")
  | .arr xs => .http 400 (s!"model_sha256 mismatch (expected {host.strOf (.arr (xs.take 16))}…, " ++
      s!"got {hashPrefix actual}…)")
  | _ => .uncaught .typeError

/-- `s.replace("Z", "+00:00")`. -/
def spellOffset (s : String) : String :=
  String.ofList (s.toList.flatMap (fun c => if c = 'Z' then "+00:00".toList else [c]))

/-- The instant an attestation claims; a time without offset is taken as UTC. -/
def submittedAt (host : Host) (v : Json) : Except PyErr ℚ :=
  match v with
  | .str s => (host.fromisoformat (spellOffset s)).map
      (fun t => t.naive - t.offset.getD 0)
  | _ => .error .attributeError

def drift (now sent : ℚ) : ℚ := |now - sent|

/-- Where an accepted upload is stored. -/
def contributionPath (modelDir : String) (roundId : ℤ) (orgId sha : String) : String :=
  s!"{modelDir}/round_{intStr roundId}/contrib_{orgId}_{hashPrefix sha}.json"

/-- The row a contribution leaves, with its count bound as a 64-bit integer. -/
def recordRow (p : Pending) (sha : String) (challenge : String) (accepted : Bool)
    (modelPath rejectionReason : Option String) (now : ℚ) : Api ℤ := do
  let count ← attempt (p.att.item "num_examples") .uncaught
  let n ← attempt count.toInt .uncaught
  let numExamples ← attempt (Host.bindInt n) .uncaught
  Api.insert (fun s => s.recordContribution
    { roundId := p.roundId
      orgId := p.orgId
      modelSha256 := sha
      numExamples
      modelPath
      signedAttestation := p.attBytes
      signatureHex := p.signature
      challenge
      accepted
      rejectionReason } now)

/-- The rest of `submit_contribution`, after the upload was read. -/
def contributeFinish (app : App) (p : Pending) (env : ContributeEnv) :
    Api ContributionResponse := do
  -- 4. the model bytes
  ensure ((p.upload.length : ℤ) ≤ app.maxModelBytes)
    (.http 413 s!"model exceeds FL_MAX_MODEL_BYTES ({intStr app.maxModelBytes} bytes)")
  let actualHash := app.host.sha256hex p.upload
  let claimed ← attempt (p.att.item "model_sha256") .uncaught
  ensure (claimed.isStr actualHash) (hashMismatch app.host claimed actualHash)
  -- 5. freshness
  let sentText ← attempt (p.att.item "submitted_at") (fun _ =>
    .http 400 "attestation.submitted_at is not valid ISO 8601")
  let sent ← attempt (submittedAt app.host sentText) (fun _ =>
    .http 400 "attestation.submitted_at is not valid ISO 8601")
  ensure (drift env.checkedAt sent ≤ 300) (.http 400
    s!"attestation timestamp drift {intStr (Decimal.round (drift env.checkedAt sent) 0).trunc}s > 300s")
  -- 6. consume the challenge
  let challenge ← attempt (p.att.item "challenge") .uncaught
  let challengeText ← attempt (app.host.bindText challenge) .uncaught
  let err ← Api.insert
    (fun s => s.consumeChallenge challengeText p.orgId p.roundId env.consumedAt)
  ensure (err = none) (.http 403 ("Challenge rejected: " ++ err.getD ""))
  -- 7. the signature
  let key ← Api.query (·.getOrgPublicKey p.orgId)
  let pubPem ← orRaise key (.http 403 "Org has no public key registered")
  let pub ← attempt (publicKeyFromPem app.host (encode pubPem)) .uncaught
  let sigBytes ← orRaise (fromHex p.signature) (.http 400 "signature must be hex-encoded")
  if verify app.host pub p.attBytes sigBytes = false then
    let _ ← recordRow p actualHash (challengeText.getD "") false none
      (some "signature verification failed") env.recordedAt
    Api.log app env.loggedAt "fl.contribution.signature_invalid" s!"org:{p.orgId}"
      s!"round_{intStr p.roundId}" (.obj [
        ("model_sha256", .str (hashPrefix actualHash))])
    raise (.http 403 "Signature verification failed")
  else
    let modelPath := contributionPath app.modelDir p.roundId p.orgId actualHash
    Api.writeFile modelPath p.upload
    let cid ← recordRow p actualHash (challengeText.getD "") true (some modelPath) none
      env.recordedAt
    let count ← attempt (p.att.item "num_examples") .uncaught
    let n ← attempt count.toInt .uncaught
    Api.log app env.loggedAt "fl.contribution.accepted" s!"org:{p.orgId}"
      s!"round_{intStr p.roundId}" (.obj [
        ("contribution_id", .int cid),
        ("model_sha256", .str (hashPrefix actualHash)),
        ("num_examples", .int n)])
    pure { contributionId := cid, roundId := p.roundId, orgId := p.orgId, modelSha256 := actualHash }

/-! ### Serving global models -/

structure SignedModel where
  roundId : ℤ
  modelB64 : String
  signedAttestation : Bytes
  signatureHex : String
  deriving DecidableEq

/-- `sorted(set(ids))`. -/
def sortedSet (ids : List String) : List String := sortedIds ids.dedup

/-- `_signed_model_response`. -/
def signedModelResponse (app : App) (roundId : ℤ) (modelBytes : Bytes) (distributedAt : String) :
    Api SignedModel := do
  let contributions ← Api.query (·.listContributions roundId)
  let acceptedOrgs := (contributions.filter (·.accepted)).map (·.orgId)
  let attBytes := buildGlobalModelAttestation app.host roundId modelBytes (sortedSet acceptedOrgs)
    distributedAt
  let coordPriv ← orRaise app.coordPriv (.uncaught .attributeError)
  pure
    { roundId
      modelB64 := app.host.b64encode modelBytes
      signedAttestation := attBytes
      signatureHex := toHex (sign app.host coordPriv attBytes) }

structure ServeEnv where
  authAt : ℚ
  distributedAt : String

/-- `GET /global-model`. -/
def getActiveGlobalModel (app : App) (req : Request) (env : ServeEnv) :
    Api (SignedModel × ℤ) := do
  let _ ← authenticate app req env.authAt
  let found ← Api.query (·.getActiveGlobalModel)
  let gm ← orRaise found (.http 404 "No global model has been published yet")
  let content ← Handler.read (fun w => w.files gm.modelPath)
  let bytes ← orRaise content (.http 404 "Active global model file missing on disk")
  let resp ← signedModelResponse app gm.roundId bytes env.distributedAt
  pure (resp, gm.versionId)

/-- Where the aggregated model of a round is stored. -/
def roundModelPath (modelDir : String) (roundId : ℤ) : String :=
  s!"{modelDir}/round_{intStr roundId}.json"

/-- `GET /rounds/{round_id}/global-model`. -/
def getRoundGlobalModel (app : App) (req : Request) (roundId : ℤ) (env : ServeEnv) :
    Api SignedModel := do
  let _ ← authenticate app req env.authAt
  let r ← requireRound roundId
  ensure (r.status = .completed) (.http 409
    s!"Round {intStr roundId} model not published yet (status {r.status.text})")
  let content ← Handler.read (fun w => w.files (roundModelPath app.modelDir roundId))
  let bytes ← orRaise content
    (.http 404 s!"Aggregated model file missing for round {intStr roundId}")
  signedModelResponse app roundId bytes env.distributedAt

/-! ### Aggregation -/

/-- A contribution that passed trust validation. -/
structure Survivor where
  orgId : String
  modelBytes : Bytes
  weight : ℚ
  deriving DecidableEq

structure TrustUpdate where
  orgId : String
  signedAttestation : Bytes
  signatureHex : String
  deriving DecidableEq

/-- What the scoring loop has collected. -/
structure Tally where
  survivors : List Survivor
  results : List ContributorResult
  trustUpdates : List TrustUpdate

/-- The judgements, clock readings and time stamps of a scoring loop, by position. -/
structure ScoreEnv where
  judge : ℕ → Bytes → Judgement
  scoredAt : ℕ → ℚ
  issuedAt : ℕ → String

def App.trustManager (app : App) (settings : TrustSettings) : TrustManager where
  python := app.python
  validationData := settings.validationData
  maxNumExamples := settings.maxNumExamples

/-- The entry of a contribution whose file cannot be read. -/
def missingResult (c : Store.AcceptedModel) : ContributorResult where
  orgId := c.orgId
  accepted := false
  accuracy := none
  trust := c.trustScore
  reason := "model bytes missing on disk"

def scoredResult (c : Store.AcceptedModel) (ev : Evaluation) : ContributorResult where
  orgId := c.orgId
  accepted := ev.accepted
  accuracy := ev.accuracy
  trust := ev.trust
  reason := ev.reason

/-- The signed trust notifications of one scored contribution. -/
def trustUpdatesOf (app : App) (roundId : ℤ) (c : Store.AcceptedModel) (ev : Evaluation)
    (issuedAt : String) : List TrustUpdate :=
  match app.coordPriv with
  | none => []
  | some coordPriv =>
    let tu := buildTrustNotificationAttestation c.orgId roundId ev.trust ev.reason issuedAt
    [{ orgId := c.orgId
       signedAttestation := tu
       signatureHex := toHex (sign app.host coordPriv tu) }]

/-- The loop over the accepted contributions, from position `i` on. -/
def scoreContributions (app : App) (tm : TrustManager) (roundId : ℤ) (env : ScoreEnv) :
    ℕ → List Store.AcceptedModel → Api Tally
  | _, [] => pure ⟨[], [], []⟩
  | i, c :: cs => do
    let content ← Handler.read (fun w => w.files c.modelPath)
    match content with
    | none =>
      let tally ← scoreContributions app tm roundId env (i + 1) cs
      pure { tally with results := missingResult c :: tally.results }
    | some mb =>
      let ev ← Api.insert
        (fun s => tm.evaluate s c.orgId (env.judge i mb) c.numExamples (env.scoredAt i))
      let tally ← scoreContributions app tm roundId env (i + 1) cs
      pure
        { survivors := if ev.accepted then ⟨c.orgId, mb, ev.weight⟩ :: tally.survivors
            else tally.survivors
          results := scoredResult c ev :: tally.results
          trustUpdates := trustUpdatesOf app roundId c ev (env.issuedAt i) ++ tally.trustUpdates }

/-- What the feature-schema gate leaves. -/
structure Gate where
  weighted : List (Bytes × ℚ)
  results : List ContributorResult
  excludedSchema : List String

/-- Mark every entry of an org as rejected. -/
def demote (orgId reason : String) (results : List ContributorResult) : List ContributorResult :=
  results.map (fun x => if x.orgId = orgId then { x with accepted := false, reason } else x)

/-- The loop of the gate over the survivors. -/
def gateLoop (py : Python) (canonical : Schema) : List Survivor → Gate → Except PyErr Gate
  | [], gate => .ok gate
  | v :: vs, gate => do
    let schema ← modelFeatureSchema py v.modelBytes
    if schema.same canonical then
      gateLoop py canonical vs { gate with weighted := gate.weighted ++ [(v.modelBytes, v.weight)] }
    else
      let expected ← describeSchema canonical
      let got ← describeSchema schema
      let reason := s!"feature-schema mismatch (expected {expected}, got {got})"
      gateLoop py canonical vs
        { gate with
          results := demote v.orgId reason gate.results
          excludedSchema := gate.excludedSchema ++ [v.orgId] }

/-- Heaviest survivor first. -/
def sortSurvivors (vs : List Survivor) : List Survivor :=
  vs.insertionSort (fun a b => b.weight ≤ a.weight)

structure AggregateEnv where
  now : ℚ
  score : ScoreEnv
  stagedNow : ℚ
  createdAt : ℚ
  schemaLoggedAt : Decimal
  loggedAt : Decimal

structure AggregateResponse where
  roundId : ℤ
  versionId : ℤ
  globalModelSha256 : String
  acceptedOrgs : List String
  rejected : List ContributorResult
  merge : MergeInfo
  stagedUntil : ℚ
  trustUpdates : List TrustUpdate
  deriving DecidableEq

/-- The schema of the heaviest survivor and the gate over all of them. -/
def schemaGate (py : Python) (tally : Tally) : Except PyErr (Schema × Gate) :=
  match sortSurvivors tally.survivors with
  | [] => .error .typeError
  | v :: vs => do
    let canonical ← modelFeatureSchema py v.modelBytes
    let gate ← gateLoop py canonical (v :: vs) ⟨[], tally.results, []⟩
    .ok (canonical, gate)

/-- The orgs of the results that are still accepted. -/
def acceptedOrgsOf (results : List ContributorResult) : List String :=
  (results.filter (·.accepted)).map (·.orgId)

/-- Stage the merged model and close the round. -/
def stageRound (app : App) (user : FLUser) (r : RoundRow) (roundId : ℤ) (responded : ℕ)
    (gate : Gate) (trustUpdates : List TrustUpdate) (globalBytes : Bytes) (info : MergeInfo)
    (env : AggregateEnv) : Api AggregateResponse := do
  let path := roundModelPath app.modelDir roundId
  Api.writeFile path globalBytes
  let globalHash := app.host.sha256hex globalBytes
  let survivors := acceptedOrgsOf gate.results
  let stagedUntil := env.stagedNow + r.params.observationHours.toRat * 3600
  let metrics : EvalMetrics := { merge := info, contributors := gate.results }
  let versionId ← Api.insert (fun s =>
    s.stageGlobalModel roundId globalHash path stagedUntil (some metrics) env.createdAt)
  Api.execute (fun s => s.completeRound roundId .aggregated responded survivors.length
    (responded - survivors.length) (some globalHash) (some metrics) env.createdAt)
  Api.log app env.loggedAt "fl.round.aggregated" user.username s!"round_{intStr roundId}" (.obj [
    ("version_id", .int versionId),
    ("global_model_sha256", .str (hashPrefix globalHash)),
    ("accepted", Json.ofStrs survivors),
    ("total_trees", .int info.totalTrees)])
  pure
    { roundId
      versionId
      globalModelSha256 := globalHash
      acceptedOrgs := survivors
      rejected := gate.results.filter (fun x => !x.accepted)
      merge := info
      stagedUntil
      trustUpdates }

/-- `POST /rounds/{round_id}/aggregate`. -/
def aggregateRound (app : App) (user : Option FLUser) (roundId : ℤ) (env : AggregateEnv) :
    Api AggregateResponse := do
  let user ← flRequire user "fl_aggregate_round"
  let r ← requireRound roundId
  requireRunning roundId r
  let obsHours := r.params.observationHours
  let remaining := r.startedAt + obsHours.toRat * 3600 - env.now
  ensure (remaining ≤ 0) (.http 409
    (s!"Round {intStr roundId} still in intake/observation for {intStr (truncate remaining)}s " ++
      s!"more (window {String.ofList (Json.decimalText obsHours)}h); " ++
      "contributions are still being collected"))
  let settings ← orRaise app.trust (.http 503 "Trust manager not initialised")
  let accepted ← Api.query (·.getAcceptedModels roundId)
  ensure (accepted ≠ []) (.http 422 "No accepted contributions to aggregate")
  let tally ← scoreContributions app (app.trustManager settings) roundId env.score 0 accepted
  ensure (tally.survivors.isEmpty = false) (.http 422
    ("All accepted contributions were rejected by trust validation; " ++ "round left running"))
  let (canonical, gate) ← attempt (schemaGate app.python tally) .uncaught
  if gate.excludedSchema ≠ [] then
    let shown ← attempt (describeSchema canonical) .uncaught
    Api.log app env.schemaLoggedAt "fl.round.schema_mismatch" user.username
      s!"round_{intStr roundId}" (.obj [
        ("canonical", .str shown),
        ("excluded_orgs", Json.ofStrs gate.excludedSchema)])
  let (globalBytes, info) ← attempt (mergeXgboostModels app.python gate.weighted) .uncaught
  stageRound app user r roundId accepted.length gate tally.trustUpdates globalBytes info env
where
  truncate (q : ℚ) : ℤ := if 0 ≤ q then ⌊q⌋ else ⌈q⌉

/-! ### Publishing and rolling back -/

structure PublishEnv where
  now : ℚ
  promotedAt : ℚ
  completedAt : ℚ
  loggedAt : Decimal

structure PublishResponse where
  versionId : ℤ
  roundId : ℤ
  modelSha256 : String
  deriving DecidableEq

/-- `POST /rounds/{round_id}/publish`. -/
def publishRoundModel (app : App) (user : Option FLUser) (roundId : ℤ) (env : PublishEnv) :
    Api PublishResponse := do
  let user ← flRequire user "fl_aggregate_round"
  let _ ← requireRound roundId
  let found ← Api.query (·.getStagedModelForRound roundId)
  let staged ← orRaise found
    (.http 409 s!"Round {intStr roundId} has no staged model — aggregate first")
  let remaining := staged.stagedUntil - env.now
  ensure (remaining ≤ 0) (.http 409
    (s!"Staged model v{intStr staged.versionId} still under observation for " ++
      s!"{intStr (aggregateRound.truncate remaining)}s more; " ++
      "publish refused until the soak window elapses"))
  let promoted ← Api.insert
    (fun s => s.promoteGlobalModel staged.versionId user.username env.promotedAt)
  Api.execute (·.setRoundStatus roundId .completed env.completedAt)
  let gm ← orRaise promoted (.uncaught .typeError)
  Api.log app env.loggedAt "fl.global_model.publish" user.username s!"round_{intStr roundId}"
    (.obj [
      ("version_id", .int gm.versionId),
      ("model_sha256", .str (hashPrefix gm.modelHash))])
  pure { versionId := gm.versionId, roundId, modelSha256 := gm.modelHash }

structure RollbackEnv where
  promotedAt : ℚ
  loggedAt : Decimal

/-- `POST /models/{version_id}/rollback`. -/
def rollbackGlobalModel (app : App) (user : Option FLUser) (versionId : ℤ) (env : RollbackEnv) :
    Api PublishResponse := do
  let user ← flRequire user "fl_aggregate_round"
  let id ← attempt (Host.bindInt versionId) .uncaught
  let found ← Api.query (·.getGlobalModel id)
  let target ← orRaise found (.http 404 s!"Unknown global-model version: {intStr versionId}")
  ensure (target.status ≠ .staged) (.http 409
    (s!"Version {intStr versionId} is still staged/under observation — " ++
      "publish it normally rather than rolling back to it"))
  let promoted ← Api.insert (fun s => s.promoteGlobalModel versionId user.username env.promotedAt)
  let gm ← orRaise promoted (.uncaught .typeError)
  Api.log app env.loggedAt "fl.global_model.rollback" user.username
    s!"version_{intStr versionId}" (.obj [
      ("version_id", .int versionId),
      ("round_id", .int gm.roundId),
      ("model_sha256", .str (hashPrefix gm.modelHash))])
  pure { versionId, roundId := gm.roundId, modelSha256 := gm.modelHash }

end FlCoordinator
