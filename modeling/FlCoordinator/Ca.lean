import FlCoordinator.Host

/-!
# The federation CA

Issuing and checking client certificates, and the revocation list (`flproto/ca.py`).
-/

namespace FlCoordinator

open Lib

section Ca

variable (host : Host)

/-- Ed25519 signs without a separate hash. -/
def caSignAlgorithm : CaKey → Option String
  | .ed25519 _ => none
  | .ec _ => some "sha256"

/-- A client certificate for one year, with the org id as common name. -/
def issueClientCert (caPriv : CaKey) (caCert : Certificate) (clientPub : Bytes)
    (orgId : String) (displayName : Json) (serial : ℤ) (now : ℚ) : Except PyErr Certificate :=
  match displayName.orElse (.str orgId) with
  | .str organization =>
    host.signCertificate caPriv (caSignAlgorithm caPriv)
      { commonName := orgId
        organization
        organizationalUnit := "fl-client"
        issuer := caCert.subject
        publicKey := clientPub
        issuerKey := caCert.publicKey
        serialNumber := serial
        notValidBefore := now - 60
        notValidAfter := now + 365 * 86400 }
  | _ => .error .typeError

def verifyCertSignedByCa (cert caCert : Certificate) : Bool :=
  match caCert.publicKey with
  | .ed25519 raw => host.ed25519Verify raw cert.tbsCertificateBytes cert.signature
  | .ec raw =>
    host.ecdsaVerify raw cert.signatureHashAlgorithm cert.tbsCertificateBytes cert.signature
  | _ => false

def certOrgId (cert : Certificate) : Option String := cert.commonName

def isCertExpired (cert : Certificate) (now : ℚ) : Bool :=
  decide (cert.notValidAfter ≤ now ∨ now < cert.notValidBefore)

def buildCrl (caCert : Certificate) (revokedSerials : List ℤ) (now : ℚ) : Crl where
  issuer := caCert.subject
  lastUpdate := now - 60
  nextUpdate := now + 30 * 86400
  revoked := revokedSerials

def isRevoked (crl : Crl) (serial : ℤ) : Bool := decide (serial ∈ crl.revoked)

end Ca

end FlCoordinator
