import FlCoordinator.Host

/-!
# Sealed boxes

Encryption of the enrollment package to the org's X25519 key (`flproto/seal_box.py`).
-/

namespace FlCoordinator

open Lib

section SealBox

variable (host : Host)

def sealInfo : Bytes := encode "fl.enroll.seal.v1"

/-- The key is derived for a single use, so the nonce is fixed. -/
def sealNonce : Bytes := List.replicate 12 0

def x25519PublicFromPem (pem : Bytes) : Except PyErr Bytes :=
  match host.loadPemPublicKey pem with
  | .error e => .error e
  | .ok (.x25519 raw) => .ok raw
  | .ok _ => .error (.valueError "Not an X25519 public key")

def deriveKey (shared ephPubRaw recipPubRaw : Bytes) : Bytes :=
  host.hkdf shared (ephPubRaw ++ recipPubRaw) sealInfo

/-- `seal`, with the ephemeral private key it generates. -/
def sealPackage (recipientPubPem : String) (plaintext ephPriv : Bytes) : Except PyErr String :=
  match x25519PublicFromPem host (encode recipientPubPem) with
  | .error e => .error e
  | .ok recip =>
    let ephPubRaw := host.x25519Public ephPriv
    match host.x25519Exchange ephPriv recip with
    | .error e => .error e
    | .ok shared =>
      let key := deriveKey host shared ephPubRaw recip
      .ok (host.b64encode (ephPubRaw ++ host.chachaEncrypt key sealNonce plaintext ephPubRaw))

def unsealPackage (recipientPriv : Bytes) (sealedB64 : String) : Except PyErr Bytes :=
  match host.b64decode sealedB64 with
  | .error e => .error e
  | .ok raw =>
    let ephPubRaw := raw.take 32
    match host.x25519Exchange recipientPriv ephPubRaw with
    | .error e => .error e
    | .ok shared =>
      let key := deriveKey host shared ephPubRaw (host.x25519Public recipientPriv)
      host.chachaDecrypt key sealNonce (raw.drop 32) ephPubRaw

end SealBox

end FlCoordinator
