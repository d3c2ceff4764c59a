import FlCoordinator.Lib.Binary64
import Mathlib.Data.UInt
import FlCoordinator.System

/-!
# A transparent installation

A host whose functions are small and executable, for the concrete runs of the result files. Its
digests have 32 bytes, its signatures name their key and sum up the message, its text encodings
are the text itself or hexadecimal, and its certificates are texts that carry their own fields.
-/

namespace FlCoordinator.Sample

open Lib

/-! ### Digests and signatures -/

/-- Fixed width, and injective on inputs of up to 31 bytes. -/
def sha256 (b : Bytes) : Bytes :=
  (UInt8.ofNat b.length :: b ++ List.replicate 31 0).take 32

lemma sha256_length (b : Bytes) : (sha256 b).length = 32 := by
  simp [sha256]

/-- The signing key, the length of the message and the sum of its bytes. -/
def tag (key message : Bytes) : Bytes := key ++ [UInt8.ofNat message.length, message.sum]

def verify (pub message signature : Bytes) : Bool := signature == tag pub message

lemma verify_tag (key message : Bytes) : verify key message (tag key message) = true := by
  simp [verify]

/-! ### Keys in PEM -/

/-- `ed:` or `x2:` and the hexadecimal key. -/
def pemKey (b : Bytes) : Except PyErr PublicKey :=
  match b with
  | 101 :: 100 :: 58 :: rest =>
    match (Json.decodeUtf8 rest).bind fromHexChars with
    | some raw => .ok (.ed25519 raw)
    | none => .error (.valueError "key")
  | 120 :: 50 :: 58 :: rest =>
    match (Json.decodeUtf8 rest).bind fromHexChars with
    | some raw => .ok (.x25519 raw)
    | none => .error (.valueError "key")
  | _ => .error (.valueError "key")

def ed25519Pem (raw : Bytes) : String := "ed:" ++ toHex raw

def x25519Pem (raw : Bytes) : String := "x2:" ++ toHex raw

/-! ### Certificates -/

/-- The byte between the fields of a certificate. -/
def bar : UInt8 := 124

def tbs (commonName : String) (serial : ℤ) (notBefore notAfter : ℚ) (pub : Bytes) : Bytes :=
  encode commonName ++ bar :: encode (intStr serial) ++ bar :: encode (intStr ⌊notBefore⌋) ++
    bar :: encode (intStr ⌊notAfter⌋) ++ bar :: encode (toHex pub)

/-- The key that signs and checks with the same bytes. -/
def caKeyBytes : CaKey → Bytes
  | .ed25519 raw => raw
  | .ec raw => raw

def signCertificate (key : CaKey) (algorithm : Option String) (r : CertRequest) :
    Except PyErr Certificate :=
  let body := tbs r.commonName r.serialNumber r.notValidBefore r.notValidAfter r.publicKey
  .ok
    { subject := "CN=" ++ r.commonName
      commonName := some r.commonName
      publicKey := .ed25519 r.publicKey
      serialNumber := r.serialNumber
      notValidBefore := r.notValidBefore
      notValidAfter := r.notValidAfter
      signatureHashAlgorithm := algorithm
      tbsCertificateBytes := body
      signature := tag (caKeyBytes key) body }

def certificateDer (cert : Certificate) : Bytes :=
  cert.tbsCertificateBytes ++ bar :: encode (toHex cert.signature)

def readInt (b : Bytes) : Option ℤ := do
  let cs ← Json.decodeUtf8 b
  match Json.scanNumber cs with
  | .ok (.int n, []) => some n
  | _ => none

def readCertificate (b : Bytes) : Option Certificate :=
  match b.splitOn bar with
  | [cn, serial, notBefore, notAfter, pub, sig] => do
    let commonName ← Json.decodeUtf8 cn
    let serialNumber ← readInt serial
    let notValidBefore ← readInt notBefore
    let notValidAfter ← readInt notAfter
    let publicKey ← (Json.decodeUtf8 pub).bind fromHexChars
    let signature ← (Json.decodeUtf8 sig).bind fromHexChars
    some
      { subject := "CN=" ++ String.ofList commonName
        commonName := some (String.ofList commonName)
        publicKey := .ed25519 publicKey
        serialNumber
        notValidBefore
        notValidAfter
        signatureHashAlgorithm := none
        tbsCertificateBytes := tbs (String.ofList commonName) serialNumber notValidBefore
          notValidAfter publicKey
        signature }
  | _ => none

def loadCertificate (b : Bytes) : Except PyErr Certificate :=
  match readCertificate b with
  | some cert => .ok cert
  | none => .error (.valueError "certificate")

/-! ### Times -/

def twoDigits (a b : Char) : ℚ := 10 * Json.digitVal a + Json.digitVal b

/-- The first day of the epoch, to the second, with or without the offset of UTC. -/
def isoTime (s : String) : Except PyErr IsoTime :=
  match s.toList with
  | '1' :: '9' :: '7' :: '0' :: '-' :: '0' :: '1' :: '-' :: '0' :: '1' :: 'T' ::
      a :: b :: ':' :: c :: d :: ':' :: e :: f :: zone =>
    let naive := 3600 * twoDigits a b + 60 * twoDigits c d + twoDigits e f
    if zone = [] then .ok ⟨naive, none⟩
    else if zone = "+00:00".toList then .ok ⟨naive, some 0⟩
    else .error (.valueError "offset")
  | _ => .error (.valueError "date")

/-! ### The installation -/

/-- The text with the bytes as characters. -/
def latin1 (b : Bytes) : String := String.ofList (b.map (fun x => Char.ofNat x.toNat))

def xorBytes (a b : Bytes) : Bytes := List.zipWith (· ^^^ ·) a b

def host : Host where
  sha256 := sha256
  ed25519Public := id
  ed25519Sign := tag
  ed25519Verify := verify
  ed25519Pem := ed25519Pem
  loadPemPublicKey := pemKey
  x25519Public := id
  x25519Exchange := fun priv pub => .ok (xorBytes priv pub)
  hkdf := fun shared salt _ => sha256 (shared ++ salt)
  chachaEncrypt := fun key _ data aad => data ++ tag key (aad ++ data)
  chachaDecrypt := fun key _ data aad =>
    let plain := data.take (data.length - (key.length + 2))
    if data = plain ++ tag key (aad ++ plain) then .ok plain else .error (.valueError "tag")
  signCertificate := signCertificate
  ecdsaVerify := fun pub _ message signature => verify pub message signature
  loadPemCertificate := loadCertificate
  loadDerCertificate := loadCertificate
  certificatePem := fun cert => String.ofList ((Json.decodeUtf8 (certificateDer cert)).getD [])
  crlPem := fun crl => encode (crl.issuer ++ Json.dumps (.arr (crl.revoked.map .int)))
  b64encode := toHex
  b64decode := fun s => match fromHex s with
    | some b => .ok b
    | none => .error (.valueError "base64")
  urlsafeB64encode := latin1
  urlsafeB64decode := .ok
  unquote := id
  fromisoformat := isoTime
  strOf := fun v => match v with
    | .str s => s
    | _ => Json.dumps v
  sqlReal := fun x => some (String.ofList (Json.floatText x))

def caKey : Bytes := [9]

def coordKey : Bytes := [7, 7]

def caCert : Certificate where
  subject := "CN=FL CA"
  commonName := some "FL CA"
  publicKey := .ed25519 caKey
  serialNumber := 1
  notValidBefore := 0
  notValidAfter := 315360000
  signatureHashAlgorithm := none
  tbsCertificateBytes := tbs "FL CA" 1 0 315360000 caKey
  signature := tag caKey (tbs "FL CA" 1 0 315360000 caKey)

def app : App where
  host := host
  python := .cpython
  caPriv := some (.ed25519 caKey)
  caCert := some caCert
  coordPriv := some coordKey
  caDir := "ca"
  modelDir := "models"
  trust := some { validationData := true, maxNumExamples := 1000000 }
  requireMtls := true
  devHeaderAllowed := false
  trustedProxy := false
  maxModelBytes := 52428800
  observationHours := Decimal.ofInt 0

def admin : FLUser := ⟨"root", .admin⟩

def operator : FLUser := ⟨"op", .operator⟩

def zero : Decimal := Decimal.ofInt 0

/-! ### Orgs -/

instance : Fact (IsOrgId "x") := ⟨by decide⟩

instance : Fact (IsOrgId "y") := ⟨by decide⟩

def enrollBody (orgId : String) (key : Bytes) [h : Fact (IsOrgId orgId)] :
    EnrollOrgRequest where
  orgId
  displayName := "Org"
  publicKeyPem := ed25519Pem key
  notes := none
  isOrgId := h.out
  displayName_length := by decide

def enrollEnv (serial : ℤ) : EnrollEnv where
  serial
  apiKey := "key" ++ intStr serial
  issuedAt := 60
  enrolledAt := 60
  loggedAt := zero

/-- The administrator enrolls an org with the given key and certificate serial. -/
def enroll (orgId : String) (key : Bytes) (serial : ℤ) [h : Fact (IsOrgId orgId)] : Event :=
  .enroll (some admin) (enrollBody orgId key) (enrollEnv serial)

def revoke (orgId : String) : Event :=
  .revoke (some admin) orgId { now := 100, writable := true } zero

def tokenBody (orgId : String) [h : Fact (IsOrgId orgId)] : EnrollTokenRequest where
  orgId
  displayName := "Org"
  ttlMinutes := 60
  isOrgId := h.out
  displayName_length := by decide
  ttl_range := by decide

/-- The administrator mints a token that is good for an hour from the start. -/
def mint (orgId jti : String) [h : Fact (IsOrgId orgId)] : Event :=
  .mintToken (some admin) (tokenBody orgId) { jti, now := 0, insertedAt := 0, loggedAt := zero }

/-- The token that `mint` returns. -/
def token (orgId jti : String) : String :=
  let att := buildEnrollTokenAttestation orgId "Org" jti 3600
  packToken host att (tag coordKey att)

/-- The signature of `key` on its enrollment through a token. -/
def popSignature (orgId jti : String) (key : Bytes) : String :=
  toHex (tag key ((buildEnrollPop host (token orgId jti) (x25519Pem key)).toOption.getD []))

lemma token_length (orgId jti : String) : 8 ≤ (token orgId jti).length := by
  have h := length_le_encode (toHex (tag coordKey
    (buildEnrollTokenAttestation orgId "Org" jti 3600)))
  simp only [toHex_length, tag, coordKey, List.length_append, List.length_cons,
    List.length_nil] at h
  simp only [token, packToken, host, latin1, String.length_ofList, List.length_map,
    List.length_append, List.length_cons]
  simp only [tag, coordKey]
  omega

/-- An enrollment request through a token, signed with one key of nine bytes or more. -/
def redeemBody (orgId jti : String) (key : Bytes) [h : Fact (IsOrgId orgId)]
    (hkey : 9 ≤ key.length) :
    EnrollWithTokenRequest where
  token := token orgId jti
  orgId
  ed25519PubPem := ed25519Pem key
  x25519PubPem := x25519Pem key
  popSignature := popSignature orgId jti key
  isOrgId := h.out
  lengths := by
    refine ⟨token_length orgId jti, ?_, ?_, ?_⟩
    · have h : "ed:".length = 3 := by decide
      simp only [ed25519Pem, String.length_append, toHex_length, h]
      omega
    · have h : "x2:".length = 3 := by decide
      simp only [x25519Pem, String.length_append, toHex_length, h]
      omega
    · simp only [popSignature, tag, toHex_length, List.length_append]
      omega

/-- The org enrolls itself with the token, at a time within the hour. -/
def redeem (orgId jti : String) (key : Bytes) (serial : ℤ) [h : Fact (IsOrgId orgId)]
    (hkey : 9 ≤ key.length := by decide) : Event :=
  .redeemToken (redeemBody orgId jti key hkey)
    { consumedAt := 200, enroll := enrollEnv serial, ephPriv := List.replicate 32 5 }

/-- The certificate that `enroll` issues. -/
def certOf (orgId : String) (key : Bytes) (serial : ℤ) : Certificate :=
  let body := tbs orgId serial 0 31536060 key
  { subject := "CN=" ++ orgId
    commonName := some orgId
    publicKey := .ed25519 key
    serialNumber := serial
    notValidBefore := 0
    notValidAfter := 31536060
    signatureHashAlgorithm := none
    tbsCertificateBytes := body
    signature := tag caKey body }

/-- A request over a connection that presented a certificate. -/
def present (cert : Certificate) : Request :=
  { clientCertChain := .one (.der (certificateDer cert)) }

/-! ### Removal -/

/-- The text of a JSON object. -/
def object (fields : String) : String := "\x7b" ++ fields ++ "\x7d"

def leaveAttestation (orgId : String) : String :=
  object ("\"org_id\":\"" ++ orgId ++ "\",\"type\":\"fl.leave_request.v1\"")

/-- The org asks to leave, over a connection with its certificate. -/
def leave (orgId : String) (key : Bytes) (serial : ℤ) : Event :=
  .leaveRequest (present (certOf orgId key serial)) orgId
    { attestation := leaveAttestation orgId
      signature := toHex (tag key (encode (leaveAttestation orgId))) }
    { authAt := 80, requestedAt := 80, loggedAt := zero }

/-- The administrator approves the removal of an org. -/
def approve (orgId : String) : Event :=
  .approveRemoval (some admin) orgId
    { revokedAt := "1970-01-01T00:01:40+00:00"
      crl := { now := 100, writable := true }
      loggedAt := zero }

/-! ### Rounds -/

def roundBody (targets : Option (List String)) : StartRoundRequest where
  epsilon := Decimal.ofInt 1
  numBoostRounds := 1
  minClients := 1
  targetOrgIds := targets
  observationHours := none
  epsilon_range := by decide +kernel
  numBoostRounds_range := by decide
  minClients_range := by decide
  observationHours_range := by simp

/-- The administrator opens a round, which is the first one in every run below. -/
def start (targets : Option (List String)) : Event :=
  .startRound (some admin) (roundBody targets)
    { startedAt := 70, startsAt := "1970-01-01T00:01:10+00:00", loggedAt := zero }

/-- The holder of `cert` asks for a challenge for the first round. -/
def challenge (text : String) (cert : Certificate) : Event :=
  .challenge (present cert) 1 { authAt := 80, challenge := text, issuedAt := 80 }

/-- The attestation of an upload to the first round. -/
def attestation (orgId challenge : String) (upload : Bytes) (count : String := "1") : String :=
  object ("\"challenge\":\"" ++ challenge ++ "\",\"model_sha256\":\"" ++
    host.sha256hex upload ++ "\",\"num_examples\":" ++ count ++ ",\"org_id\":\"" ++ orgId ++
    "\",\"round_id\":1,\"submitted_at\":\"1970-01-01T00:01:40+00:00\"," ++
    "\"type\":\"fl.contribution.v1\"")

/-- The org uploads a model, signed with its key, over a connection with its certificate. -/
def contribute (orgId text : String) (key : Bytes) (serial : ℤ) (upload : Bytes)
    (count : String := "1") : Event :=
  .contribute
    { req := present (certOf orgId key serial)
      roundId := 1
      attestation := attestation orgId text upload count
      signature := toHex (tag key (encode (attestation orgId text upload count)))
      upload
      authAt := 90 }

/-- The oldest suspended upload goes on. -/
def resume : Event :=
  .resume 0 { checkedAt := 100, consumedAt := 100, recordedAt := 100, loggedAt := zero }

/-- A model of one tree. -/
def model : Bytes :=
  encode (object ("\"learner\":" ++ object ("\"feature_names\":[\"f\"],\"gradient_booster\":" ++
    object ("\"model\":" ++ object ("\"trees\":[" ++ object "\"id\":0" ++ "]")))))

/-- What the trust manager makes of the contributions, by position. -/
def aggregateEnv (judge : ℕ → Judgement) : AggregateEnv where
  now := 200
  score :=
    { judge := fun i _ => judge i
      scoredAt := fun _ => 200
      issuedAt := fun _ => "1970-01-01T00:03:20+00:00" }
  stagedNow := 200
  createdAt := 200
  schemaLoggedAt := zero
  loggedAt := zero

def aggregate (judge : ℕ → Judgement) : Event :=
  .aggregate (some admin) 1 (aggregateEnv judge)

def publish : Event :=
  .publish (some admin) 1 { now := 300, promotedAt := 300, completedAt := 300, loggedAt := zero }

end FlCoordinator.Sample
