import FlCoordinator.Lib.JsonText

/-!
# The libraries under the coordinator

`Host` collects the functions of `hashlib`, `cryptography`, `base64`, `urllib`, `datetime` and
SQLite that the code calls. The model is written over an arbitrary `Host`; a result that
relies on how one of them behaves says so as a hypothesis.
-/

namespace FlCoordinator

open Lib

/-- A key loaded from PEM, by the types the code tests for. -/
inductive PublicKey
  | ed25519 (raw : Bytes)
  | x25519 (raw : Bytes)
  | ec (raw : Bytes)
  | other
  deriving DecidableEq

/-- The private key of the federation CA. -/
inductive CaKey
  | ed25519 (raw : Bytes)
  | ec (raw : Bytes)
  deriving DecidableEq

/-- What `issue_client_cert` sets on the certificate builder. -/
structure CertRequest where
  commonName : String
  organization : String
  organizationalUnit : String
  issuer : String
  publicKey : Bytes
  issuerKey : PublicKey
  serialNumber : ℤ
  notValidBefore : ℚ
  notValidAfter : ℚ
  deriving DecidableEq

/-- The fields of an `x509.Certificate` that the code reads. -/
structure Certificate where
  subject : String
  commonName : Option String
  publicKey : PublicKey
  serialNumber : ℤ
  notValidBefore : ℚ
  notValidAfter : ℚ
  signatureHashAlgorithm : Option String
  tbsCertificateBytes : Bytes
  signature : Bytes
  deriving DecidableEq

/-- The fields of a certificate revocation list. -/
structure Crl where
  issuer : String
  lastUpdate : ℚ
  nextUpdate : ℚ
  revoked : List ℤ
  deriving DecidableEq

/-- What `datetime.fromisoformat` reads: the fields as seconds since the epoch, and the offset
from UTC when one is given. -/
structure IsoTime where
  naive : ℚ
  offset : Option ℚ

structure Host where
  /-- `hashlib.sha256(b).digest()`. -/
  sha256 : Bytes → Bytes
  ed25519Public : Bytes → Bytes
  ed25519Sign : Bytes → Bytes → Bytes
  ed25519Verify : Bytes → Bytes → Bytes → Bool
  ed25519Pem : Bytes → String
  loadPemPublicKey : Bytes → Except PyErr PublicKey
  x25519Public : Bytes → Bytes
  x25519Exchange : Bytes → Bytes → Except PyErr Bytes
  /-- `HKDF(SHA256, 32, salt, info).derive(shared)`. -/
  hkdf : Bytes → Bytes → Bytes → Bytes
  /-- `ChaCha20Poly1305(key).encrypt(nonce, data, aad)`. -/
  chachaEncrypt : Bytes → Bytes → Bytes → Bytes → Bytes
  chachaDecrypt : Bytes → Bytes → Bytes → Bytes → Except PyErr Bytes
  /-- `builder.sign(ca_priv, algorithm)`. -/
  signCertificate : CaKey → Option String → CertRequest → Except PyErr Certificate
  /-- `pub.verify(signature, tbs, ec.ECDSA(hash))`. -/
  ecdsaVerify : Bytes → Option String → Bytes → Bytes → Bool
  loadPemCertificate : Bytes → Except PyErr Certificate
  loadDerCertificate : Bytes → Except PyErr Certificate
  certificatePem : Certificate → String
  crlPem : Crl → Bytes
  b64encode : Bytes → String
  b64decode : String → Except PyErr Bytes
  urlsafeB64encode : Bytes → String
  urlsafeB64decode : Bytes → Except PyErr Bytes
  unquote : String → String
  fromisoformat : String → Except PyErr IsoTime
  /-- `str(v)`, as an f-string prints it. -/
  strOf : Json → String
  /-- The text a float is compared as in a `TEXT` column; `NULL` for a NaN. -/
  sqlReal : PyFloat → Option String

namespace Host

variable (host : Host)

/-- `hashlib.sha256(b).hexdigest()`. -/
def sha256hex (b : Bytes) : String := toHex (host.sha256 b)

/-! ### Values bound to SQLite columns -/

/-- An integer parameter must fit 64 bits. -/
def bindInt (n : ℤ) : Except PyErr ℤ :=
  if -(2 ^ 63) ≤ n ∧ n < 2 ^ 63 then .ok n else .error .overflowError

/-- A parameter compared with or stored in a `TEXT` column. -/
def bindText (v : Json) : Except PyErr (Option String) :=
  match v with
  | .null => .ok none
  | .bool b => .ok (some (if b then "1" else "0"))
  | .int n => (bindInt n).map (fun n => some (String.ofList (Json.intText n)))
  | .float x => .ok (host.sqlReal x)
  | .str s => .ok (some s)
  | _ => .error .interfaceError

end Host

end FlCoordinator
