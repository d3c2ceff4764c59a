import FlCoordinator.Host
import FlCoordinator.Lib.Table

/-!
# The coordinator's database

The tables of `coordinator/store.py` and the statements the handlers run on them. Each
operation takes the clock readings it makes.
-/

namespace FlCoordinator

open Lib

inductive OrgStatus
  | active
  | blocked
  | revoked
  | leavePending
  deriving DecidableEq, Repr

def OrgStatus.text : OrgStatus → String
  | .active => "active"
  | .blocked => "blocked"
  | .revoked => "revoked"
  | .leavePending => "leave_pending"

/-- A row of `orgs`. -/
structure OrgRow where
  orgId : String
  displayName : String
  apiKeyHash : String
  publicKeyPem : Option String
  certPem : Option String
  certSerial : Option ℤ
  enrolledAt : ℚ
  enrolledBy : String
  status : OrgStatus
  trustScore : ℚ
  lastSeenAt : Option ℚ
  lastAccuracy : Option ℚ
  notes : Option String
  leaveRequestedAt : Option ℚ
  leaveAttestation : Option Bytes
  leaveSignature : Option String
  removalAttestation : Option Bytes
  removalSignature : Option String
  deriving DecidableEq

inductive RoundStatus
  | running
  | aggregated
  | completed
  deriving DecidableEq, Repr

def RoundStatus.text : RoundStatus → String
  | .running => "running"
  | .aggregated => "aggregated"
  | .completed => "completed"

/-- The dict stored as `params_json`. -/
structure RoundParams where
  epsilon : Decimal
  numBoostRounds : ℤ
  minClients : ℤ
  targetOrgIds : Option (List String)
  observationHours : Decimal
  deriving DecidableEq

/-- `info` of `merge_xgboost_models`. -/
structure MergeInfo where
  numModels : ℕ
  totalTrees : ℕ
  capped : Bool
  deriving DecidableEq

/-- One entry of `results` in `aggregate_round`. -/
structure ContributorResult where
  orgId : String
  accepted : Bool
  accuracy : Option ℚ
  trust : ℚ
  reason : String
  deriving DecidableEq

/-- The dict stored as `eval_metrics_json`. -/
structure EvalMetrics where
  merge : MergeInfo
  contributors : List ContributorResult
  deriving DecidableEq

/-- A row of `rounds`. -/
structure RoundRow where
  roundId : ℤ
  startedAt : ℚ
  startedBy : String
  completedAt : Option ℚ
  status : RoundStatus
  params : RoundParams
  numClientsInvited : ℕ
  numClientsResponded : ℕ
  numClientsAccepted : ℕ
  numClientsRejected : ℕ
  globalModelHash : Option String
  evalMetrics : Option EvalMetrics
  announceAttestation : Option Bytes
  announceSignature : Option String
  deriving DecidableEq

/-- A row of `challenges`. -/
structure ChallengeRow where
  challenge : String
  orgId : String
  roundId : ℤ
  issuedAt : ℚ
  expiresAt : ℚ
  consumed : Bool
  consumedAt : Option ℚ
  deriving DecidableEq

/-- A row of `enrollment_tokens`. -/
structure TokenRow where
  jti : String
  orgId : String
  displayName : String
  issuedAt : ℚ
  expiresAt : ℚ
  consumed : Bool
  consumedAt : Option ℚ
  deriving DecidableEq

/-- A row of `contributions`. -/
structure ContributionRow where
  contributionId : ℤ
  roundId : ℤ
  orgId : String
  receivedAt : ℚ
  modelSha256 : String
  numExamples : ℤ
  modelPath : Option String
  signedAttestation : Bytes
  signatureHex : String
  challenge : String
  accepted : Bool
  rejectionReason : Option String
  deriving DecidableEq

inductive ModelStatus
  | staged
  | active
  | archived
  deriving DecidableEq, Repr

def ModelStatus.text : ModelStatus → String
  | .staged => "staged"
  | .active => "active"
  | .archived => "archived"

/-- A row of `global_models`. -/
structure GlobalModelRow where
  versionId : ℤ
  roundId : ℤ
  createdAt : ℚ
  stagedUntil : ℚ
  status : ModelStatus
  modelHash : String
  modelPath : String
  promotedAt : Option ℚ
  promotedBy : Option String
  evalMetrics : Option EvalMetrics
  deriving DecidableEq

structure Store where
  orgs : Table OrgRow.orgId
  rounds : AutoTable RoundRow.roundId
  challenges : Table ChallengeRow.challenge
  tokens : Table TokenRow.jti
  contributions : AutoTable ContributionRow.contributionId
  globalModels : AutoTable GlobalModelRow.versionId

namespace Store

def empty : Store :=
  ⟨Table.empty, AutoTable.empty, Table.empty, Table.empty, AutoTable.empty, AutoTable.empty⟩

/-! ### Orgs -/

def getOrg (s : Store) (orgId : String) : Option OrgRow := s.orgs.get? orgId

/-- What an enrollment sets; the other columns get their defaults. -/
structure Enrollment where
  orgId : String
  displayName : String
  apiKeyHash : String
  enrolledBy : String
  publicKeyPem : Option String
  certPem : Option String
  certSerial : Option ℤ
  notes : Option String

def Enrollment.row (e : Enrollment) (now : ℚ) : OrgRow where
  orgId := e.orgId
  displayName := e.displayName
  apiKeyHash := e.apiKeyHash
  publicKeyPem := e.publicKeyPem
  certPem := e.certPem
  certSerial := e.certSerial
  enrolledAt := now
  enrolledBy := e.enrolledBy
  status := .active
  trustScore := 1
  lastSeenAt := none
  lastAccuracy := none
  notes := e.notes
  leaveRequestedAt := none
  leaveAttestation := none
  leaveSignature := none
  removalAttestation := none
  removalSignature := none

/-- Only an unknown or a revoked org can be enrolled. -/
def enrollConflict (s : Store) (orgId : String) : Option PyErr :=
  match s.getOrg orgId with
  | none => none
  | some existing =>
    if existing.status = .revoked then none
    else some (.valueError
      s!"org_id already enrolled (status={existing.status.text}): {orgId}")

/-- `INSERT OR REPLACE INTO orgs`. -/
def insertOrg (s : Store) (e : Enrollment) (now : ℚ) : Store :=
  { s with orgs := s.orgs.upsert (e.row now) }

/-- Insert a new org, or replace a revoked one. -/
def enrollOrg (s : Store) (e : Enrollment) (now : ℚ) : Except PyErr Store :=
  match s.enrollConflict e.orgId with
  | some err => .error err
  | none => .ok (s.insertOrg e now)

/-- The registered key of an active org; an empty one counts as missing. -/
def getOrgPublicKey (s : Store) (orgId : String) : Option String :=
  match s.getOrg orgId with
  | none => none
  | some row =>
    if row.status = .active then row.publicKeyPem.filter (· ≠ "") else none

/-- All revoked orgs' certificate serials. -/
def listRevokedSerials (s : Store) : List ℤ :=
  (s.orgs.rows.filter (fun r => r.status = .revoked)).filterMap (·.certSerial)

def listOrgs (s : Store) : List OrgRow :=
  s.orgs.rows.insertionSort (fun a b => a.enrolledAt ≤ b.enrolledAt)

def setOrgStatus (s : Store) (orgId : String) (status : OrgStatus) : Store :=
  { s with orgs := s.orgs.update orgId (fun r => { r with status }) }

def setLeaveRequest (s : Store) (orgId : String) (attestation : Bytes) (signatureHex : String)
    (now : ℚ) : Store :=
  { s with orgs := s.orgs.update orgId (fun r =>
      { r with
        status := .leavePending
        leaveRequestedAt := some now
        leaveAttestation := some attestation
        leaveSignature := some signatureHex }) }

def setRemovalConfirm (s : Store) (orgId : String) (attestation : Bytes)
    (signatureHex : String) : Store :=
  { s with orgs := s.orgs.update orgId (fun r =>
      { r with
        removalAttestation := some attestation
        removalSignature := some signatureHex }) }

/-- Trust is clamped to `[0, 1]`. -/
def clampTrust (t : ℚ) : ℚ := max 0 (min 1 t)

def updateOrgTrust (s : Store) (orgId : String) (trustScore : ℚ) (now : ℚ) : Store :=
  { s with orgs := s.orgs.update orgId (fun r =>
      { r with trustScore := clampTrust trustScore, lastSeenAt := some now }) }

def getOrgLastAccuracy (s : Store) (orgId : String) : Option ℚ :=
  (s.getOrg orgId).bind (·.lastAccuracy)

def setOrgLastAccuracy (s : Store) (orgId : String) (accuracy : ℚ) : Store :=
  { s with orgs := s.orgs.update orgId (fun r => { r with lastAccuracy := some accuracy }) }

/-! ### Challenges and enrollment tokens -/

/-- `INSERT INTO challenges`; a repeated challenge breaks the primary key. -/
def issueChallenge (s : Store) (orgId : String) (roundId : ℤ) (challenge : String)
    (ttlSeconds : ℚ) (now : ℚ) : Except PyErr Store :=
  match s.challenges.insert?
      { challenge, orgId, roundId
        issuedAt := now
        expiresAt := now + ttlSeconds
        consumed := false
        consumedAt := none } with
  | some challenges => .ok { s with challenges }
  | none => .error .integrityError

/-- `None` and the row consumed, or the reason of the refusal and nothing changed. -/
def consumeChallenge (s : Store) (challenge : Option String) (orgId : String) (roundId : ℤ)
    (now : ℚ) : Option String × Store :=
  match challenge.bind s.challenges.get? with
  | none => (some "Unknown challenge", s)
  | some row =>
    if row.orgId = orgId ∧ row.roundId = roundId ∧ row.consumed = false ∧ now < row.expiresAt then
      (none, { s with challenges := s.challenges.update row.challenge (fun r =>
        { r with consumed := true, consumedAt := some now }) })
    else if row.orgId ≠ orgId then (some "Challenge belongs to a different org", s)
    else if row.roundId ≠ roundId then (some "Challenge belongs to a different round", s)
    else if row.consumed then (some "Challenge already consumed", s)
    else if row.expiresAt ≤ now then (some "Challenge expired", s)
    else (some "Challenge consumption failed", s)

/-- The update of a consumed challenge. -/
def consumeChallengeRow (s : Store) (challenge : String) (now : ℚ) : Store :=
  { s with challenges := s.challenges.update challenge (fun r =>
      { r with consumed := true, consumedAt := some now }) }

def createEnrollToken (s : Store) (jti orgId displayName : String) (expiresAt now : ℚ) :
    Except PyErr Store :=
  match s.tokens.insert?
      { jti, orgId, displayName
        issuedAt := now
        expiresAt
        consumed := false
        consumedAt := none } with
  | some tokens => .ok { s with tokens }
  | none => .error .integrityError

def consumeEnrollToken (s : Store) (jti : Option String) (orgId : String) (now : ℚ) :
    Option String × Store :=
  match jti.bind s.tokens.get? with
  | none => (some "Unknown enrollment token", s)
  | some row =>
    if row.orgId = orgId ∧ row.consumed = false ∧ now < row.expiresAt then
      (none, { s with tokens := s.tokens.update row.jti (fun r =>
        { r with consumed := true, consumedAt := some now }) })
    else if row.orgId ≠ orgId then (some "Token belongs to a different org", s)
    else if row.consumed then (some "Token already used", s)
    else if row.expiresAt ≤ now then (some "Token expired", s)
    else (some "Token rejected", s)

/-- The update of a consumed enrollment token. -/
def consumeTokenRow (s : Store) (jti : String) (now : ℚ) : Store :=
  { s with tokens := s.tokens.update jti (fun r =>
      { r with consumed := true, consumedAt := some now }) }

/-! ### Contributions -/

/-- What a contribution records besides its id. -/
structure Contribution where
  roundId : ℤ
  orgId : String
  modelSha256 : String
  numExamples : ℤ
  modelPath : Option String
  signedAttestation : Bytes
  signatureHex : String
  challenge : String
  accepted : Bool
  rejectionReason : Option String

def Contribution.row (c : Contribution) (now : ℚ) (id : ℤ) : ContributionRow where
  contributionId := id
  roundId := c.roundId
  orgId := c.orgId
  receivedAt := now
  modelSha256 := c.modelSha256
  numExamples := c.numExamples
  modelPath := c.modelPath
  signedAttestation := c.signedAttestation
  signatureHex := c.signatureHex
  challenge := c.challenge
  accepted := c.accepted
  rejectionReason := c.rejectionReason

/-- The new row's id and the store with the row. -/
def recordContribution (s : Store) (c : Contribution) (now : ℚ) : ℤ × Store :=
  let inserted := s.contributions.insert (c.row now)
  (inserted.1, { s with contributions := inserted.2 })

def hasAcceptedContribution (s : Store) (roundId : ℤ) (orgId : String) : Bool :=
  s.contributions.rows.any (fun c => c.roundId = roundId ∧ c.orgId = orgId ∧ c.accepted = true)

/-- A row of the join in `get_accepted_models`. -/
structure AcceptedModel where
  orgId : String
  numExamples : ℤ
  modelPath : String
  modelSha256 : String
  trustScore : ℚ
  deriving DecidableEq

/-- The accepted contributions of a round that have a file, in order of arrival. -/
def acceptedContributions (s : Store) (roundId : ℤ) : List ContributionRow :=
  (s.contributions.rows.filter (fun c =>
    c.roundId = roundId ∧ c.accepted = true ∧ c.modelPath.isSome)).insertionSort
      (fun a b => a.receivedAt ≤ b.receivedAt)

def getAcceptedModels (s : Store) (roundId : ℤ) : List AcceptedModel :=
  (s.acceptedContributions roundId).map (fun c =>
    { orgId := c.orgId
      numExamples := c.numExamples
      modelPath := c.modelPath.getD ""
      modelSha256 := c.modelSha256
      trustScore := ((s.getOrg c.orgId).map (·.trustScore)).getD (1 / 2) })

/-- The contributions of a round, the latest first. -/
def listContributions (s : Store) (roundId : ℤ) : List ContributionRow :=
  (s.contributions.rows.filter (fun c => c.roundId = roundId)).insertionSort
    (fun a b => b.receivedAt ≤ a.receivedAt)

/-! ### Rounds -/

def startRound (s : Store) (startedBy : String) (params : RoundParams) (invitedCount : ℕ)
    (now : ℚ) : ℤ × Store :=
  let inserted := s.rounds.insert (fun id =>
    { roundId := id
      startedAt := now
      startedBy
      completedAt := none
      status := .running
      params
      numClientsInvited := invitedCount
      numClientsResponded := 0
      numClientsAccepted := 0
      numClientsRejected := 0
      globalModelHash := none
      evalMetrics := none
      announceAttestation := none
      announceSignature := none })
  (inserted.1, { s with rounds := inserted.2 })

def setRoundAnnouncement (s : Store) (roundId : ℤ) (attestation : Bytes) (signatureHex : String) :
    Store :=
  { s with rounds := s.rounds.update roundId (fun r =>
      { r with announceAttestation := some attestation, announceSignature := some signatureHex }) }

def getRound (s : Store) (roundId : ℤ) : Option RoundRow := s.rounds.get? roundId

/-- `completed_at` is set only together with the status `completed`. -/
def completeRound (s : Store) (roundId : ℤ) (status : RoundStatus)
    (responded accepted rejected : ℕ) (globalModelHash : Option String)
    (evalMetrics : Option EvalMetrics) (now : ℚ) : Store :=
  { s with rounds := s.rounds.update roundId (fun r =>
      { r with
        completedAt := if status = .completed then some now else none
        status
        numClientsResponded := responded
        numClientsAccepted := accepted
        numClientsRejected := rejected
        globalModelHash
        evalMetrics }) }

def setRoundStatus (s : Store) (roundId : ℤ) (status : RoundStatus) (now : ℚ) : Store :=
  { s with rounds := s.rounds.update roundId (fun r =>
      if status = .completed then { r with status, completedAt := some now }
      else { r with status }) (by intro r; split <;> rfl) }

/-- The rounds of a status, the latest first. -/
def listRoundsByStatus (s : Store) (status : RoundStatus) : List RoundRow :=
  (s.rounds.rows.filter (fun r => r.status = status)).insertionSort
    (fun a b => b.startedAt ≤ a.startedAt)

/-! ### Versions of the global model -/

def stageGlobalModel (s : Store) (roundId : ℤ) (modelHash modelPath : String) (stagedUntil : ℚ)
    (evalMetrics : Option EvalMetrics) (now : ℚ) : ℤ × Store :=
  let inserted := s.globalModels.insert (fun id =>
    { versionId := id
      roundId
      createdAt := now
      stagedUntil
      status := .staged
      modelHash
      modelPath
      promotedAt := none
      promotedBy := none
      evalMetrics })
  (inserted.1, { s with globalModels := inserted.2 })

def getGlobalModel (s : Store) (versionId : ℤ) : Option GlobalModelRow :=
  s.globalModels.get? versionId

def getStagedModelForRound (s : Store) (roundId : ℤ) : Option GlobalModelRow :=
  ((s.globalModels.rows.filter (fun g => g.roundId = roundId ∧ g.status = .staged)).insertionSort
    (fun a b => b.createdAt ≤ a.createdAt)).head?

/-- `ORDER BY promoted_at DESC`: a missing time sorts last. -/
def promotedBefore (a b : GlobalModelRow) : Bool :=
  match a.promotedAt, b.promotedAt with
  | some x, some y => decide (y ≤ x)
  | none, some _ => false
  | _, none => true

def getActiveGlobalModel (s : Store) : Option GlobalModelRow :=
  ((s.globalModels.rows.filter (fun g => g.status = .active)).insertionSort
    (fun a b => promotedBefore a b)).head?

/-- Archive what is active and activate the version; `None` when it does not exist. -/
def promoteGlobalModel (s : Store) (versionId : ℤ) (promotedBy : String) (now : ℚ) :
    Option GlobalModelRow × Store :=
  match s.getGlobalModel versionId with
  | none => (none, s)
  | some _ =>
    let archived := s.globalModels.updateAll
      (fun g => if g.status = .active then { g with status := .archived } else g)
      (by intro g; split <;> rfl)
    let promoted := archived.update versionId (fun g =>
      { g with status := .active, promotedAt := some now, promotedBy := some promotedBy })
    (promoted.get? versionId, { s with globalModels := promoted })

end Store

end FlCoordinator
