import FlCoordinator.Host
import FlCoordinator.Lib.Python

/-!
# Attestations

Keys, signatures and the payloads both sides sign (`flproto/attestation.py`).
-/

namespace FlCoordinator

open Lib

/-- Deterministic serialisation: sorted keys, compact separators, ASCII. -/
def canonicalJson (v : Json) : Bytes := encodeChars (Json.text Json.compact (Json.sortKeys v))

theorem loads_canonicalJson {v : Json} (hv : Json.Plain v) :
    Json.loads (canonicalJson v) = .ok (Json.sortKeys v) :=
  Json.loads_text Json.readable_compact (Json.plain_sortKeys v hv)

lemma loads_flat_canonicalJson (py : Python) {fs : List (String × Json)}
    (hkeys : (fs.map (·.1)).Nodup) (h : ∀ p ∈ fs, Json.Modest p.2) :
    py.loads (canonicalJson (.obj fs)) = .ok (Json.sortKeys (.obj fs)) := by
  have hperm := List.perm_insertionSort (fun p q : String × Json => p.1 ≤ q.1) fs
  rw [canonicalJson, Json.sortKeys_flat h]
  apply Python.loads_flat Json.readable_compact
  · exact (hperm.map _).nodup_iff.mpr hkeys
  · exact fun p hp => h p (hperm.mem_iff.mp hp)

section Keys

variable (host : Host)

def publicKeyFromPem (pem : Bytes) : Except PyErr Bytes :=
  match host.loadPemPublicKey pem with
  | .error e => .error e
  | .ok (.ed25519 raw) => .ok raw
  | .ok _ => .error (.valueError "Not an Ed25519 public key")

/-- `private_key_from_pem`, where `load` is `load_pem_private_key`. -/
def privateKeyFromPem (load : Bytes → Except PyErr CaKey) (pem : Bytes) : Except PyErr Bytes :=
  match load pem with
  | .error e => .error e
  | .ok (.ed25519 raw) => .ok raw
  | .ok (.ec _) => .error (.valueError "Not an Ed25519 private key")

def sign (priv : Bytes) (message : Bytes) : Bytes := host.ed25519Sign priv message

def verify (pub : Bytes) (message : Bytes) (signature : Bytes) : Bool :=
  host.ed25519Verify pub message signature

end Keys

section Payloads

variable (host : Host)

def buildContributionAttestation (roundId : ℤ) (orgId : String) (modelBytes : Bytes)
    (numExamples : ℤ) (challenge : String) (submittedAt : String) : Bytes :=
  canonicalJson (.obj [
    ("type", .str "fl.contribution.v1"),
    ("round_id", .int roundId),
    ("org_id", .str orgId),
    ("model_sha256", .str (host.sha256hex modelBytes)),
    ("num_examples", .int numExamples),
    ("challenge", .str challenge),
    ("submitted_at", .str submittedAt)])

/-- `sorted(ids)`. -/
def sortedIds (ids : List String) : List String := ids.insertionSort (· ≤ ·)

def buildGlobalModelAttestation (roundId : ℤ) (modelBytes : Bytes)
    (acceptedOrgIds : List String) (distributedAt : String) : Bytes :=
  canonicalJson (.obj [
    ("type", .str "fl.global_model.v1"),
    ("round_id", .int roundId),
    ("model_sha256", .str (host.sha256hex modelBytes)),
    ("accepted_orgs", Json.ofStrs (sortedIds acceptedOrgIds)),
    ("distributed_at", .str distributedAt)])

def buildRoundAnnouncementAttestation (roundId : ℤ) (epsilon : Decimal) (numBoostRounds : ℤ)
    (invitedOrgIds : List String) (startsAt : String) : Bytes :=
  canonicalJson (.obj [
    ("type", .str "fl.round_announce.v1"),
    ("round_id", .int roundId),
    ("epsilon", Json.ofDecimal epsilon),
    ("num_boost_rounds", .int numBoostRounds),
    ("invited_orgs", Json.ofStrs (sortedIds invitedOrgIds)),
    ("starts_at", .str startsAt)])

def buildTrustNotificationAttestation (orgId : String) (roundId : ℤ) (newTrustScore : ℚ)
    (reason : String) (issuedAt : String) : Bytes :=
  canonicalJson (.obj [
    ("type", .str "fl.trust_update.v1"),
    ("org_id", .str orgId),
    ("round_id", .int roundId),
    ("trust_score", Json.ofDecimal (Decimal.round newTrustScore 6)),
    ("reason", .str reason),
    ("issued_at", .str issuedAt)])

def buildRemovalConfirmAttestation (orgId : String) (revokedAt : String) : Bytes :=
  canonicalJson (.obj [
    ("type", .str "fl.removal_confirm.v1"),
    ("org_id", .str orgId),
    ("revoked_at", .str revokedAt)])

def buildEnrollTokenAttestation (orgId displayName jti : String) (expiresAt : ℚ) : Bytes :=
  canonicalJson (.obj [
    ("type", .str "fl.enroll_token.v1"),
    ("org_id", .str orgId),
    ("display_name", .str displayName),
    ("jti", .str jti),
    ("expires_at", Json.ofDecimal (Decimal.round expiresAt 3))])

/-- The token is encoded as ASCII, which fails on other characters. -/
def buildEnrollPop (tokenB64 x25519PubPem : String) : Except PyErr Bytes :=
  if (encode tokenB64).all (· < 128) then
    .ok (canonicalJson (.obj [
      ("type", .str "fl.enroll_pop.v1"),
      ("token_sha256", .str (host.sha256hex (encode tokenB64))),
      ("x25519_pub_pem", .str x25519PubPem)]))
  else .error .unicodeEncodeError

end Payloads

/-! ### Reading a signed payload back -/

/-- The list of org ids under `key`, as a verifier reads it from the signed bytes. -/
def readOrgs (key : String) (att : Bytes) : Option (List String) :=
  match Json.loads att with
  | .ok (.obj fs) =>
    match Json.field? key fs with
    | some (.arr xs) => xs.mapM Json.str?
    | _ => none
  | _ => none

lemma mapM_str?_ofStrs (ids : List String) :
    ((Json.sortKeysList (ids.map Json.str)).mapM Json.str?) = some ids := by
  induction ids with
  | nil => rfl
  | cons i ids ih =>
    simp only [List.map_cons, Json.sortKeysList, Json.sortKeys, List.mapM_cons, Json.str?] at ih ⊢
    rw [ih]
    rfl

lemma readOrgs_canonicalJson {key : String} {fs : List (String × Json)} {ids : List String}
    (hplain : Json.Plain (.obj fs)) (hkey : Json.field? key fs = some (Json.ofStrs ids)) :
    readOrgs key (canonicalJson (.obj fs)) = some ids := by
  obtain ⟨gs, hgs, hfield⟩ := Json.get_sortKeys key (Json.plain_obj.mp hplain).1
  rw [readOrgs, loads_canonicalJson hplain, hgs]
  simp only [hfield, hkey, Option.map_some, Json.ofStrs, Json.sortKeys]
  exact mapM_str?_ofStrs ids

lemma plain_ofStrs (ids : List String) : Json.Plain (Json.ofStrs ids) := by
  apply Json.plain_arr.mpr
  intro x hx
  obtain ⟨s, -, rfl⟩ := List.mem_map.mp hx
  trivial

theorem readOrgs_globalModel (host : Host) (roundId : ℤ) (modelBytes : Bytes)
    (ids : List String) (distributedAt : String) :
    readOrgs "accepted_orgs" (buildGlobalModelAttestation host roundId modelBytes ids distributedAt)
      = some (sortedIds ids) := by
  refine readOrgs_canonicalJson (Json.plain_obj.mpr ⟨by simp, ?_⟩) rfl
  simp only [List.mem_cons, List.not_mem_nil, or_false]
  rintro p (rfl | rfl | rfl | rfl | rfl)
  · trivial
  · trivial
  · trivial
  · exact plain_ofStrs _
  · trivial

theorem readOrgs_announcement (roundId : ℤ) (epsilon : Decimal) (numBoostRounds : ℤ)
    (ids : List String) (startsAt : String) :
    readOrgs "invited_orgs"
      (buildRoundAnnouncementAttestation roundId epsilon numBoostRounds ids startsAt)
      = some (sortedIds ids) := by
  refine readOrgs_canonicalJson (Json.plain_obj.mpr ⟨by simp, ?_⟩) rfl
  simp only [List.mem_cons, List.not_mem_nil, or_false]
  rintro p (rfl | rfl | rfl | rfl | rfl | rfl)
  · trivial
  · trivial
  · trivial
  · trivial
  · exact plain_ofStrs _
  · trivial

@[simp] lemma mem_sortedIds {i : String} {ids : List String} : i ∈ sortedIds ids ↔ i ∈ ids :=
  (List.perm_insertionSort _ ids).mem_iff

end FlCoordinator
