import FlCoordinator.Attestation
import FlCoordinator.Middleware
import FlCoordinator.SealBox

/-!
# Enrollment and removal of orgs

The `/fl/orgs` handlers of `coordinator/api.py`. What a handler draws from the clock or from a
random generator is an argument.
-/

namespace FlCoordinator

open Lib Handler

/-! ### Request bodies -/

/-- `^[a-zA-Z0-9_-]+$`, 1 to 64 characters. -/
def IsOrgId (s : String) : Prop :=
  1 ≤ s.length ∧ s.length ≤ 64 ∧
    ∀ c ∈ s.toList, c.isAlphanum = true ∨ c = '_' ∨ c = '-'

instance (s : String) : Decidable (IsOrgId s) := inferInstanceAs (Decidable (_ ∧ _ ∧ _))

structure EnrollOrgRequest where
  orgId : String
  displayName : String
  publicKeyPem : String
  notes : Option String
  isOrgId : IsOrgId orgId
  displayName_length : 1 ≤ displayName.length ∧ displayName.length ≤ 128

structure EnrollTokenRequest where
  orgId : String
  displayName : String
  ttlMinutes : ℤ
  isOrgId : IsOrgId orgId
  displayName_length : 1 ≤ displayName.length ∧ displayName.length ≤ 128
  ttl_range : 1 ≤ ttlMinutes ∧ ttlMinutes ≤ 1440

structure EnrollWithTokenRequest where
  token : String
  orgId : String
  ed25519PubPem : String
  x25519PubPem : String
  popSignature : String
  isOrgId : IsOrgId orgId
  lengths : 8 ≤ token.length ∧ 20 ≤ ed25519PubPem.length ∧ 20 ≤ x25519PubPem.length ∧
    16 ≤ popSignature.length

structure LeaveRequestBody where
  attestation : String
  signature : String

/-! ### The revocation list -/

/-- The clock at a rebuild of the CRL, and whether its file can be written. -/
structure CrlEnv where
  now : ℚ
  writable : Bool

/-- Rebuild the CRL from the revoked orgs' serials, write it and load it. -/
def regenerateCrl (app : App) (env : CrlEnv) : Api Bool :=
  match app.ca with
  | none => pure false
  | some (_, caCert) => do
    let serials ← Api.query Store.listRevokedSerials
    let crl := buildCrl caCert serials env.now
    if env.writable then
      Api.writeFile (app.caDir ++ "/crl.pem") (app.host.crlPem crl)
      Handler.write (fun w => { w with crl := some crl })
      pure true
    else pure false

/-! ### Enrollment -/

/-- The certificate serial, the API key and the clock readings of an enrollment. -/
structure EnrollEnv where
  serial : ℤ
  apiKey : String
  issuedAt : ℚ
  enrolledAt : ℚ
  loggedAt : Decimal

structure EnrollResponse where
  orgId : String
  apiKey : String
  clientCertPem : String
  caCertPem : String
  coordinatorPubPem : String
  certSerial : String
  deriving DecidableEq

/-- `POST /orgs/enroll`. -/
def enrollOrg (app : App) (user : Option FLUser) (body : EnrollOrgRequest) (env : EnrollEnv) :
    Api EnrollResponse := do
  let user ← flRequire user "fl_enroll_org"
  let orgPub ← attempt (publicKeyFromPem app.host (encode body.publicKeyPem)) fun e =>
    .http 400 s!"Invalid public_key_pem (must be Ed25519 SubjectPublicKeyInfo PEM): {e.text}"
  let ca ← orRaise app.ca (.http 503
    "Federation CA not initialised — run `python -m federated.init_fl_ca` first.")
  let cert ← attempt (issueClientCert app.host ca.1 ca.2 orgPub body.orgId
    (.str body.displayName) env.serial env.issuedAt) .uncaught
  let certSerial := intStr cert.serialNumber
  Api.tryExecute (fun s => s.enrollOrg
    { orgId := body.orgId
      displayName := body.displayName
      apiKeyHash := app.host.sha256hex (encode env.apiKey)
      enrolledBy := user.username
      publicKeyPem := some body.publicKeyPem
      certPem := some (app.host.certificatePem cert)
      certSerial := some cert.serialNumber
      notes := body.notes } env.enrolledAt) fun e => .http 409 e.text
  Api.log app env.loggedAt "fl.org.enroll" user.username body.orgId (.obj [
    ("display_name", .str body.displayName),
    ("cert_serial", .str certSerial),
    ("pub_key_sha256", .str (hashPrefix (app.host.sha256hex (encode body.publicKeyPem))))])
  let coordPriv ← orRaise app.coordPriv (.uncaught .attributeError)
  pure
    { orgId := body.orgId
      apiKey := env.apiKey
      clientCertPem := app.host.certificatePem cert
      caCertPem := app.host.certificatePem ca.2
      coordinatorPubPem := app.host.ed25519Pem (app.host.ed25519Public coordPriv)
      certSerial }

/-! ### Enrollment tokens -/

structure MintEnv where
  jti : String
  now : ℚ
  insertedAt : ℚ
  loggedAt : Decimal

structure MintResponse where
  token : String
  orgId : String
  caSha256 : String
  expiresAt : ℚ
  deriving DecidableEq

/-- The separator between the signed bytes and the signature in a token. -/
def dot : UInt8 := 46

def packToken (host : Host) (att sig : Bytes) : String :=
  host.urlsafeB64encode (att ++ dot :: encode (toHex sig))

/-- `POST /orgs/enroll-token`. -/
def mintEnrollToken (app : App) (user : Option FLUser) (body : EnrollTokenRequest)
    (env : MintEnv) : Api MintResponse := do
  let user ← flRequire user "fl_enroll_org"
  let existing ← Api.query (·.getOrg body.orgId)
  ensure (∀ org ∈ existing, org.status = .revoked) (.http 409
    ("org_id already enrolled (status=" ++ (existing.map (·.status.text)).getD "" ++
      "); revoke it first to re-issue"))
  let keys ← orRaise (app.coordPriv.bind fun k => app.caCert.map fun c => (k, c))
    (.http 503 "Coordinator signing key / CA not loaded")
  let expiresAt := env.now + body.ttlMinutes * 60
  let att := buildEnrollTokenAttestation body.orgId body.displayName env.jti expiresAt
  let token := packToken app.host att (sign app.host keys.1 att)
  Api.tryExecute (fun s => s.createEnrollToken env.jti body.orgId body.displayName expiresAt
    env.insertedAt) .uncaught
  Api.log app env.loggedAt "fl.org.enroll_token" user.username body.orgId (.obj [
    ("jti", .str env.jti),
    ("ttl_minutes", .int body.ttlMinutes)])
  pure
    { token
      orgId := body.orgId
      caSha256 := app.host.sha256hex (encode (app.host.certificatePem keys.2))
      expiresAt }

structure RedeemEnv where
  consumedAt : ℚ
  enroll : EnrollEnv
  ephPriv : Bytes

structure RedeemResponse where
  orgId : String
  sealedPackageB64 : String
  deriving DecidableEq

/-- `base64.urlsafe_b64decode(token)` split at its last dot. -/
def unpackToken (host : Host) (token : String) : Option (Bytes × Bytes) := do
  let raw ← (host.urlsafeB64decode (encode token)).toOption
  let (att, sigHex) ← rsplitOnce dot raw
  let chars ← Json.decodeUtf8 sigHex
  let sig ← fromHexChars chars
  pure (att, sig)

/-- The package an org unseals after its enrollment. -/
def enrollmentPackage (app : App) (coordPriv : Bytes) (caCert cert : Certificate)
    (orgId apiKey : String) : Json :=
  .obj [
    ("org_id", .str orgId),
    ("api_key", .str apiKey),
    ("client_cert_pem", .str (app.host.certificatePem cert)),
    ("ca_cert_pem", .str (app.host.certificatePem caCert)),
    ("coordinator_pub_pem", .str (app.host.ed25519Pem (app.host.ed25519Public coordPriv))),
    ("cert_serial", .str (intStr cert.serialNumber))]

/-- `POST /orgs/enroll-with-token`. -/
def enrollWithToken (app : App) (body : EnrollWithTokenRequest) (env : RedeemEnv) :
    Api RedeemResponse := do
  let keys ← orRaise (app.coordPriv.bind fun k => app.ca.map fun ca => (k, ca))
    (.http 503 "Coordinator keys / CA not loaded")
  let (coordPriv, caPriv, caCert) := keys
  -- 1. the token and the coordinator's signature on it
  let parts ← orRaise (unpackToken app.host body.token) (.http 400 "Malformed enrollment token")
  ensure (verify app.host (app.host.ed25519Public coordPriv) parts.1 parts.2)
    (.http 403 "Enrollment token signature invalid")
  let tok ← attempt (Json.loads parts.1) fun _ => .http 400 "Malformed token payload"
  let type ← attempt (tok.get "type" .null) .uncaught
  let tokOrgId ← attempt (tok.get "org_id" .null) .uncaught
  ensure (type.isStr "fl.enroll_token.v1" ∧ tokOrgId.isStr body.orgId)
    (.http 400 "Token type/org_id mismatch")
  -- 2. proof of possession, before the token is consumed
  let edPub ← attempt (publicKeyFromPem app.host (encode body.ed25519PubPem)) fun e =>
    .http 400 s!"Invalid ed25519_pub_pem: {e.text}"
  let _ ← attempt (x25519PublicFromPem app.host (encode body.x25519PubPem)) fun e =>
    .http 400 s!"Invalid x25519_pub_pem: {e.text}"
  let popAtt ← attempt (buildEnrollPop app.host body.token body.x25519PubPem) .uncaught
  let popSig ← orRaise (fromHex body.popSignature) (.http 400 "pop_signature must be hex")
  ensure (verify app.host edPub popAtt popSig)
    (.http 403 "Proof-of-possession signature invalid")
  -- 3. consume the token
  let jti ← attempt (tok.item "jti") .uncaught
  let jtiText ← attempt (app.host.bindText jti) .uncaught
  let err ← Api.insert (fun s => s.consumeEnrollToken jtiText body.orgId env.consumedAt)
  ensure (err = none) (.http 403 ("Enrollment token rejected: " ++ err.getD ""))
  -- 4. the certificate and the org
  let displayName ← attempt (tok.item "display_name") .uncaught
  let cert ← attempt (issueClientCert app.host caPriv caCert edPub body.orgId displayName
    env.enroll.serial env.enroll.issuedAt) .uncaught
  let conflict ← Api.query (·.enrollConflict body.orgId)
  ensure (conflict = none) (.http 409 ((conflict.map (·.text)).getD ""))
  let nameText ← attempt (app.host.bindText displayName) .uncaught
  let name ← orRaise nameText (.uncaught .integrityError)
  Api.execute (fun s => s.insertOrg
    { orgId := body.orgId
      displayName := name
      apiKeyHash := app.host.sha256hex (encode env.enroll.apiKey)
      enrolledBy := s!"self:token:{app.host.strOf jti}"
      publicKeyPem := some body.ed25519PubPem
      certPem := some (app.host.certificatePem cert)
      certSerial := some cert.serialNumber
      notes := none } env.enroll.enrolledAt)
  -- 5. the sealed package
  let sealed ← attempt (sealPackage app.host body.x25519PubPem
    (Json.dumpsBytes (enrollmentPackage app coordPriv caCert cert body.orgId env.enroll.apiKey))
    env.ephPriv) .uncaught
  Api.log app env.enroll.loggedAt "fl.org.self_enrolled" s!"org:{body.orgId}" body.orgId (.obj [
    ("jti", jti),
    ("cert_serial", .str (intStr cert.serialNumber))])
  pure { orgId := body.orgId, sealedPackageB64 := sealed }

/-! ### Status changes -/

structure StatusResponse where
  orgId : String
  status : OrgStatus
  deriving DecidableEq

/-- What the block, unblock and revoke endpoints share. -/
def changeStatus (app : App) (permission : String) (status : OrgStatus) (action : String)
    (hook : Api Unit) (user : Option FLUser) (orgId : String) (loggedAt : Decimal) :
    Api StatusResponse := do
  let user ← flRequire user permission
  let org ← Api.query (·.getOrg orgId)
  ensure org.isSome (.http 404 s!"Unknown org: {orgId}")
  Api.execute (·.setOrgStatus orgId status)
  hook
  Api.log app loggedAt action user.username orgId (.obj [])
  pure { orgId, status }

/-- `POST /orgs/{org_id}/block`. -/
def blockOrg (app : App) : Option FLUser → String → Decimal → Api StatusResponse :=
  changeStatus app "fl_block_org" .blocked "fl.org.block" (pure ())

/-- `POST /orgs/{org_id}/unblock`. -/
def unblockOrg (app : App) : Option FLUser → String → Decimal → Api StatusResponse :=
  changeStatus app "fl_unblock_org" .active "fl.org.unblock" (pure ())

/-- `DELETE /orgs/{org_id}`, which also rebuilds the CRL. -/
def revokeOrg (app : App) (crlEnv : CrlEnv) :
    Option FLUser → String → Decimal → Api StatusResponse :=
  changeStatus app "fl_revoke_org" .revoked "fl.org.revoke"
    (do let _ ← regenerateCrl app crlEnv)

/-! ### Removal by mutual acknowledgement -/

structure LeaveEnv where
  authAt : ℚ
  requestedAt : ℚ
  loggedAt : Decimal

/-- `POST /orgs/{org_id}/leave-request`. -/
def orgLeaveRequest (app : App) (req : Request) (orgId : String) (body : LeaveRequestBody)
    (env : LeaveEnv) : Api StatusResponse := do
  let auth ← Handler.read (fun w => getAuthenticatedOrgId app req w env.authAt)
  let authOrgId ← attempt auth id
  ensure (authOrgId = orgId) (.http 403 "authenticated org does not match path org_id")
  let found ← Api.query (·.getOrg orgId)
  let org ← orRaise found (.http 404 s!"Unknown org: {orgId}")
  ensure (org.status ≠ .revoked) (.http 409 "org already removed")
  let attBytes := encode body.attestation
  let att ← attempt (app.python.loads attBytes) fun _ =>
    .http 400 "attestation is not valid JSON"
  let type ← attempt (att.get "type" .null) .uncaught
  let attOrgId ← attempt (att.get "org_id" .null) .uncaught
  ensure (type.isStr "fl.leave_request.v1" ∧ attOrgId.isStr orgId)
    (.http 400 "attestation type/org_id mismatch")
  let pubPem ← orRaise (org.publicKeyPem.filter (· ≠ ""))
    (.http 403 "Org has no public key registered")
  let sigBytes ← orRaise (fromHex body.signature) (.http 400 "signature must be hex-encoded")
  let pub ← attempt (publicKeyFromPem app.host (encode pubPem)) .uncaught
  ensure (verify app.host pub attBytes sigBytes)
    (.http 403 "leave-request signature verification failed")
  Api.execute (·.setLeaveRequest orgId attBytes body.signature env.requestedAt)
  let reason ← attempt (att.get "reason" (.str "")) .uncaught
  Api.log app env.loggedAt "fl.org.leave_requested" s!"org:{orgId}" orgId (.obj [
    ("reason", .str (String.ofList ((app.host.strOf reason).toList.take 200)))])
  pure { orgId, status := .leavePending }

structure ApproveEnv where
  revokedAt : String
  crl : CrlEnv
  loggedAt : Decimal

/-- The signed confirmation a removed org verifies. -/
structure RemovalConfirm where
  signedAttestation : Bytes
  signatureHex : String
  deriving DecidableEq

/-- `POST /orgs/{org_id}/approve-removal`. -/
def approveRemoval (app : App) (user : Option FLUser) (orgId : String) (env : ApproveEnv) :
    Api RemovalConfirm := do
  let user ← flRequire user "fl_revoke_org"
  let found ← Api.query (·.getOrg orgId)
  let org ← orRaise found (.http 404 s!"Unknown org: {orgId}")
  ensure (org.status = .leavePending) (.http 409
    (s!"org has not requested to leave (status={org.status.text}). " ++
      s!"Use DELETE /fl/orgs/{orgId} to force-revoke."))
  let coordPriv ← orRaise app.coordPriv (.http 503 "Coordinator signing key not loaded")
  let confirmBytes := buildRemovalConfirmAttestation orgId env.revokedAt
  let sigHex := toHex (sign app.host coordPriv confirmBytes)
  Api.execute (·.setOrgStatus orgId .revoked)
  Api.execute (·.setRemovalConfirm orgId confirmBytes sigHex)
  let _ ← regenerateCrl app env.crl
  Api.log app env.loggedAt "fl.org.removal_approved" user.username orgId (.obj [])
  pure { signedAttestation := confirmBytes, signatureHex := sigHex }

structure RemovalStatus where
  orgId : String
  status : OrgStatus
  removalConfirm : Option (Bytes × Option String)
  deriving DecidableEq

/-- `GET /orgs/{org_id}/removal-status`: an org that is leaving or gone reads its own row. -/
def removalStatus (app : App) (req : Request) (orgId : String) (now : ℚ) :
    Api RemovalStatus := do
  let found ← Api.query (·.getOrg orgId)
  let org ← orRaise found (.http 404 s!"Unknown org: {orgId}")
  let mtlsOrgId ← Handler.read (fun w => extractVerifiedOrgId app req w now)
  let keyOk := (req.apiKey.filter (· ≠ "")).any
    (fun k => org.apiKeyHash = app.host.sha256hex (encode k))
  ensure (mtlsOrgId = some orgId ∨ keyOk)
    (.http 401 "auth required (mTLS client cert or X-FL-API-Key for this org)")
  let confirm := org.removalAttestation.filter (fun b => !b.isEmpty)
  pure
    { orgId
      status := org.status
      removalConfirm :=
        if org.status = .revoked then confirm.map (fun b => (b, org.removalSignature)) else none }

end FlCoordinator
