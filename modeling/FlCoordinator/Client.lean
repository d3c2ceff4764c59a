import FlCoordinator.Enrollment
import FlCoordinator.Versions

/-!
# The reference client

How an org fetches and checks a global model (`client_ref/fl_client.py`). The client checks the
signature of the coordinator and the digest of the model, and no other signed field.
-/

namespace FlCoordinator

open Lib

section Definitions

variable (host : Host)

/-- The argument `signed_attestation`: bytes, or a value of a response. -/
inductive SignedAttestation
  | bytes (b : Bytes)
  | value (v : Json)

/-- `signed_attestation if isinstance(.., bytes) else signed_attestation.encode("utf-8")`. -/
def SignedAttestation.encoded : SignedAttestation → Except PyErr Bytes
  | bytes b => .ok b
  | value (.str s) => .ok (encode s)
  | value _ => .error .attributeError

/-- `bytes.fromhex(v)`. -/
def bytesFromHex : Json → Except PyErr Bytes
  | .str s =>
    match fromHex s with
    | some b => .ok b
    | none => .error (.valueError "non-hexadecimal number found in fromhex() arg")
  | _ => .error .typeError

/-- `verify_global_model`. -/
def verifyGlobalModel (coordinatorPublicKeyPem modelBytes : Bytes)
    (signedAttestation : SignedAttestation) (signatureHex : Json) :
    Except PyErr (Bool × String) := do
  let pub ← publicKeyFromPem host coordinatorPublicKeyPem
  let attBytes ← signedAttestation.encoded
  let signature ← bytesFromHex signatureHex
  if verify host pub attBytes signature = false then .ok (false, "coordinator signature invalid")
  else
    match Json.loads attBytes with
    | .error (.jsonDecodeError _) => .ok (false, "signed_attestation is not valid JSON")
    | .error e => .error e
    | .ok att => do
      let modelSha256 ← att.get "model_sha256" .null
      if modelSha256.isStr (host.sha256hex modelBytes) = false then
        .ok (false, "model sha256 does not match signed attestation")
      else .ok (true, "ok")

/-- `base64.b64decode(v)`. -/
def b64decodeValue : Json → Except PyErr Bytes
  | .str s => host.b64decode s
  | _ => .error .typeError

/-- A response, with what its `json()` returns or raises. -/
structure HttpResponse where
  statusCode : ℕ
  json : Except PyErr Json

/-- `raise_for_status`: an `HTTPError` is an `OSError`. -/
def HttpResponse.raiseForStatus (r : HttpResponse) : Except PyErr Unit :=
  if 400 ≤ r.statusCode ∧ r.statusCode < 600 then .error .osError else .ok ()

structure FLClient where
  baseUrl : String
  coordPubPem : Option Bytes

/-- `fetch_global_model`, where `network` answers a `GET` of a URL. -/
def FLClient.fetchGlobalModel (client : FLClient) (network : String → HttpResponse) (roundId : ℤ)
    (verifySignature : Bool) : Except PyErr Bytes := do
  let r := network s!"{client.baseUrl}/fl/rounds/{intStr roundId}/global-model"
  let _ ← r.raiseForStatus
  let payload ← r.json
  let modelB64 ← payload.item "model_b64"
  let modelBytes ← b64decodeValue host modelB64
  if verifySignature then
    let pem := client.coordPubPem.getD []
    if pem = [] then
      .error (.valueError "coordinator_public_key_pem required to verify the global model")
    else do
      let signedAttestation ← payload.item "signed_attestation"
      let signatureHex ← payload.item "signature_hex"
      let (ok, why) ← verifyGlobalModel host pem modelBytes (.value signedAttestation) signatureHex
      if ok = false then .error (.valueError s!"global model verification failed: {why}")
      else .ok modelBytes
  else .ok modelBytes

/-- The answer of the coordinator that carries a signed model. -/
def SignedModel.payload (m : SignedModel) : Json :=
  .obj [
    ("round_id", .int m.roundId),
    ("model_b64", .str m.modelB64),
    ("signed_attestation",
      .str (String.ofList ((Json.decodeUtf8 m.signedAttestation).getD []))),
    ("signature_hex", .str m.signatureHex)]

end Definitions

/-! ### Fields of signed messages -/

section Fields

/-- A field of a signed JSON object. -/
def readField (key : String) (att : Bytes) : Option Json :=
  match Json.loads att with
  | .ok (.obj fs) => Json.field? key fs
  | _ => none

lemma readField_canonicalJson {key : String} {fs : List (String × Json)}
    (hplain : Json.Plain (.obj fs)) :
    readField key (canonicalJson (.obj fs)) = (Json.field? key fs).map Json.sortKeys := by
  obtain ⟨gs, hgs, hfield⟩ := Json.get_sortKeys key (Json.plain_obj.mp hplain).1
  rw [readField, loads_canonicalJson hplain, hgs]
  exact hfield

/-- The messages of the coordinator that are about no model. -/
inductive Notice : Bytes → Prop
  | token (body : EnrollTokenRequest) (env : MintEnv) : Notice (tokenAttestation body env)
  | announcement (roundId : ℤ) (epsilon : Decimal) (numBoostRounds : ℤ) (ids : List String)
      (startsAt : String) :
      Notice (buildRoundAnnouncementAttestation roundId epsilon numBoostRounds ids startsAt)
  | trustNotification (orgId : String) (roundId : ℤ) (score : ℚ) (reason issuedAt : String) :
      Notice (buildTrustNotificationAttestation orgId roundId score reason issuedAt)
  | removalConfirm (orgId revokedAt : String) :
      Notice (buildRemovalConfirmAttestation orgId revokedAt)

lemma Notice.model_eq_none {att : Bytes} (h : Notice att) : readField "model_sha256" att = none := by
  cases h with
  | token body env =>
    rw [tokenAttestation, buildEnrollTokenAttestation, readField_canonicalJson]
    · rfl
    · exact Json.plain_obj.mpr ⟨by simp, by simp [Json.Plain, Json.ofDecimal]⟩
  | announcement roundId epsilon numBoostRounds ids startsAt =>
    rw [buildRoundAnnouncementAttestation, readField_canonicalJson]
    · rfl
    · exact Json.plain_obj.mpr ⟨by simp, by simp [Json.Plain, Json.ofDecimal, plain_ofStrs]⟩
  | trustNotification orgId roundId score reason issuedAt =>
    rw [buildTrustNotificationAttestation, readField_canonicalJson]
    · rfl
    · exact Json.plain_obj.mpr ⟨by simp, by simp [Json.Plain, Json.ofDecimal]⟩
  | removalConfirm orgId revokedAt =>
    rw [buildRemovalConfirmAttestation, readField_canonicalJson]
    · rfl
    · exact Json.plain_obj.mpr ⟨by simp, by simp [Json.Plain]⟩

lemma readField_globalModel (host : Host) (roundId : ℤ) (modelBytes : Bytes) (ids : List String)
    (distributedAt : String) :
    readField "type" (buildGlobalModelAttestation host roundId modelBytes ids distributedAt) =
        some (.str "fl.global_model.v1") ∧
      readField "round_id" (buildGlobalModelAttestation host roundId modelBytes ids distributedAt) =
        some (.int roundId) ∧
      readField "model_sha256"
          (buildGlobalModelAttestation host roundId modelBytes ids distributedAt) =
        some (.str (host.sha256hex modelBytes)) := by
  have hplain : Json.Plain (.obj [
      ("type", .str "fl.global_model.v1"),
      ("round_id", .int roundId),
      ("model_sha256", .str (host.sha256hex modelBytes)),
      ("accepted_orgs", Json.ofStrs (sortedIds ids)),
      ("distributed_at", .str distributedAt)]) :=
    Json.plain_obj.mpr ⟨by simp, by simp [Json.Plain, plain_ofStrs]⟩
  rw [buildGlobalModelAttestation, readField_canonicalJson hplain, readField_canonicalJson hplain,
    readField_canonicalJson hplain]
  exact ⟨rfl, rfl, rfl⟩

end Fields

/-! ### What a fetched model proves -/

section Fetched

variable {app : App} {es : List Event} {client : FLClient} {network : String → HttpResponse}
  {roundId : ℤ} {modelBytes : Bytes} {coordPriv : Bytes}

/-- A request at this state is answered with this signed model. -/
def Served (app : App) (w : World) (m : SignedModel) : Prop :=
  (∃ req roundId env, (getRoundGlobalModel app req roundId env w).1 = .ok m) ∨
    ∃ req env version, (getActiveGlobalModel app req env w).1 = .ok (m, version)

/-- What the coordinator may have signed during a run: the models it served, and any notice. -/
def SignedIn (app : App) (es : List Event) (att : Bytes) : Prop :=
  (∃ pre post m, es = pre ++ post ∧ Served app (after app pre).world m ∧
    m.signedAttestation = att) ∨ Notice att

/-- The message and the signature that a response carries. -/
def presented (response : HttpResponse) : Except PyErr (Bytes × Bytes) := do
  let payload ← response.json
  let signedAttestation ← payload.item "signed_attestation"
  let attBytes ← (SignedAttestation.value signedAttestation).encoded
  let signatureHex ← payload.item "signature_hex"
  let signature ← bytesFromHex signatureHex
  .ok (attBytes, signature)

/-- Nobody forges the coordinator: a response with a valid signature carries a message that the
coordinator signed. -/
def NoForgery (app : App) (es : List Event) (network : String → HttpResponse) : Prop :=
  ∀ url coordPriv att sig, app.coordPriv = some coordPriv →
    presented (network url) = .ok (att, sig) →
    verify app.host (app.host.ed25519Public coordPriv) att sig = true → SignedIn app es att

/-- The client knows the public key of the coordinator. -/
def FLClient.Trusts (client : FLClient) (app : App) : Prop :=
  ∃ coordPriv pem, app.coordPriv = some coordPriv ∧ client.coordPubPem = some pem ∧
    publicKeyFromPem app.host pem = .ok (app.host.ed25519Public coordPriv)

/-- In the run, the coordinator signed an attestation for a model with this digest. -/
def ModelSigned (app : App) (es : List Event) (roundId : ℤ) (modelBytes : Bytes) : Prop :=
  ∃ pre post m, es = pre ++ post ∧ Served app (after app pre).world m ∧
    readField "type" m.signedAttestation = some (.str "fl.global_model.v1") ∧
    readField "round_id" m.signedAttestation = some (.int roundId) ∧
    readField "model_sha256" m.signedAttestation = some (.str (app.host.sha256hex modelBytes))

lemma verifyGlobalModel_ok {host : Host} {pem : Bytes} {signedAttestation : SignedAttestation}
    {signatureHex : Json} {why : String}
    (h : verifyGlobalModel host pem modelBytes signedAttestation signatureHex = .ok (true, why)) :
    ∃ pub att sig, publicKeyFromPem host pem = .ok pub ∧ signedAttestation.encoded = .ok att ∧
      bytesFromHex signatureHex = .ok sig ∧ verify host pub att sig = true ∧
      readField "model_sha256" att = some (.str (host.sha256hex modelBytes)) := by
  obtain ⟨pub, hpub, h⟩ := bind_eq_ok.mp h
  obtain ⟨att, hatt, h⟩ := bind_eq_ok.mp h
  obtain ⟨sig, hsig, h⟩ := bind_eq_ok.mp h
  refine ⟨pub, att, sig, hpub, hatt, hsig, ?_⟩
  split_ifs at h with hverify
  · cases h
  · use Bool.eq_true_of_not_eq_false hverify
    rw [readField]
    split at h
    · cases h
    · cases h
    · rename_i v hv
      obtain ⟨stored, hstored, h⟩ := bind_eq_ok.mp h
      split_ifs at h with hsha
      · cases h
      · have heq := Json.eq_str_of_isStr (Bool.eq_true_of_not_eq_false hsha)
        subst heq
        rw [hv]
        cases v with
        | obj fs =>
          dsimp only
          rw [Json.get] at hstored
          cases hfield : Json.field? "model_sha256" fs with
          | none =>
            rw [hfield] at hstored
            cases hstored
          | some w =>
            rw [hfield] at hstored
            exact congrArg some (Except.ok.inj hstored)
        | _ => cases hstored

lemma fetchGlobalModel_ok {host : Host} {pem : Bytes} (hpem : client.coordPubPem = some pem)
    (h : client.fetchGlobalModel host network roundId true = .ok modelBytes) :
    ∃ url pub att sig, publicKeyFromPem host pem = .ok pub ∧
      presented (network url) = .ok (att, sig) ∧ verify host pub att sig = true ∧
      readField "model_sha256" att = some (.str (host.sha256hex modelBytes)) := by
  use s!"{client.baseUrl}/fl/rounds/{intStr roundId}/global-model"
  obtain ⟨-, -, h⟩ := bind_eq_ok.mp h
  obtain ⟨payload, hpayload, h⟩ := bind_eq_ok.mp h
  obtain ⟨modelB64, -, h⟩ := bind_eq_ok.mp h
  obtain ⟨bytes, -, h⟩ := bind_eq_ok.mp h
  rw [if_pos rfl, hpem] at h
  dsimp only at h
  split_ifs at h with hempty
  obtain ⟨signedAttestation, hsigned, h⟩ := bind_eq_ok.mp h
  obtain ⟨signatureHex, hhex, h⟩ := bind_eq_ok.mp h
  obtain ⟨⟨ok, why⟩, hverified, h⟩ := bind_eq_ok.mp h
  cases ok with
  | false => cases h
  | true =>
    cases Except.ok.inj h
    obtain ⟨pub, att, sig, hpub, hatt, hsig, hrest⟩ := verifyGlobalModel_ok hverified
    refine ⟨pub, att, sig, hpub, ?_, hrest⟩
    exact bind_eq_ok.mpr ⟨payload, hpayload, bind_eq_ok.mpr ⟨signedAttestation, hsigned,
      bind_eq_ok.mpr ⟨att, hatt, bind_eq_ok.mpr ⟨signatureHex, hhex,
        bind_eq_ok.mpr ⟨sig, hsig, rfl⟩⟩⟩⟩⟩

lemma Served.fields {w : World} {m : SignedModel} (h : Served app w m) :
    ∃ bytes, readField "type" m.signedAttestation = some (.str "fl.global_model.v1") ∧
      readField "round_id" m.signedAttestation = some (.int m.roundId) ∧
      readField "model_sha256" m.signedAttestation = some (.str (app.host.sha256hex bytes)) := by
  have hcarries : ∃ roundId bytes, Carries app w roundId bytes m := by
    rcases h with ⟨req, k, env, h⟩ | ⟨req, env, version, h⟩
    · obtain ⟨-, bytes, -, hcarries⟩ := getRoundGlobalModel_ok h
      exact ⟨k, bytes, hcarries⟩
    · obtain ⟨g, bytes, -, -, -, hcarries⟩ := getActiveGlobalModel_ok h
      exact ⟨g.roundId, bytes, hcarries⟩
  obtain ⟨k, bytes, hcarries⟩ := hcarries
  obtain ⟨ids, distributedAt, hatt, -⟩ := hcarries.attested
  use bytes
  rw [hatt, hcarries.round]
  exact readField_globalModel app.host k bytes ids distributedAt

/-- A fetched model has the digest that the coordinator signed for the model of some round. -/
theorem fetched_model_signed (htrusts : client.Trusts app) (hforge : NoForgery app es network)
    (h : client.fetchGlobalModel app.host network roundId true = .ok modelBytes) :
    ∃ signedRound, ModelSigned app es signedRound modelBytes := by
  obtain ⟨coordPriv, pem, hkey, hpem, hpub⟩ := htrusts
  obtain ⟨url, pub, att, sig, hpub', hpresented, hverify, hsha⟩ := fetchGlobalModel_ok hpem h
  cases hpub.symm.trans hpub'
  rcases hforge url coordPriv att sig hkey hpresented hverify with
    ⟨pre, post, m, hes, hserved, rfl⟩ | hnotice
  · obtain ⟨bytes, htype, hround, -⟩ := hserved.fields
    exact ⟨m.roundId, pre, post, m, hes, hserved, htype, hround, hsha⟩
  · rw [hnotice.model_eq_none] at hsha
    cases hsha

lemma encode_decode_canonicalJson (v : Json) :
    encode (String.ofList ((Json.decodeUtf8 (canonicalJson v)).getD [])) = canonicalJson v := by
  have hascii := Json.ascii_text Json.readable_compact (Json.sortKeys v)
  rw [canonicalJson, Json.encodeChars_ascii hascii, Json.decodeUtf8_ascii hascii, encode_eq,
    Option.getD_some, String.toList_ofList, Json.encodeChars_ascii hascii]

lemma encoded_payload {w : World} {m : SignedModel} {k : ℤ} (h : Carries app w k modelBytes m) :
    (SignedAttestation.value (.str (String.ofList
      ((Json.decodeUtf8 m.signedAttestation).getD [])))).encoded = .ok m.signedAttestation := by
  obtain ⟨ids, distributedAt, hatt, -⟩ := h.attested
  rw [hatt]
  exact congrArg Except.ok (encode_decode_canonicalJson _)

lemma presented_payload {w : World} {m : SignedModel} {k : ℤ} {statusCode : ℕ} {att sig : Bytes}
    (h : Carries app w k modelBytes m)
    (hpresented : presented ⟨statusCode, .ok m.payload⟩ = .ok (att, sig)) :
    att = m.signedAttestation := by
  obtain ⟨payload, hpayload, hpresented⟩ := bind_eq_ok.mp hpresented
  cases hpayload
  obtain ⟨v, hv, hpresented⟩ := bind_eq_ok.mp hpresented
  cases hv
  obtain ⟨b, hb, hpresented⟩ := bind_eq_ok.mp hpresented
  cases (encoded_payload h).symm.trans hb
  obtain ⟨hex, -, hpresented⟩ := bind_eq_ok.mp hpresented
  obtain ⟨s, -, hpresented⟩ := bind_eq_ok.mp hpresented
  cases hpresented
  rfl

lemma fetchGlobalModel_payload {w : World} {m : SignedModel} {k : ℤ} {pem : Bytes}
    (hcarries : Carries app w k modelBytes m) (hkey : app.coordPriv = some coordPriv)
    (hpem : client.coordPubPem = some pem) (hne : pem ≠ [])
    (hpub : publicKeyFromPem app.host pem = .ok (app.host.ed25519Public coordPriv))
    (hsign : ∀ msg, verify app.host (app.host.ed25519Public coordPriv) msg
      (sign app.host coordPriv msg) = true)
    (hb64 : app.host.b64decode (app.host.b64encode modelBytes) = .ok modelBytes)
    (hnetwork : ∀ url, network url = ⟨200, .ok m.payload⟩) :
    client.fetchGlobalModel app.host network roundId true = .ok modelBytes := by
  obtain ⟨ids, distributedAt, hatt, -⟩ := hcarries.attested
  obtain ⟨priv, hpriv, hhex⟩ := hcarries.signed
  cases hkey.symm.trans hpriv
  obtain ⟨-, -, hsha⟩ := readField_globalModel app.host k modelBytes ids distributedAt
  rw [← hatt] at hsha
  have hsignature : bytesFromHex (.str m.signatureHex) =
      .ok (sign app.host coordPriv m.signedAttestation) := by
    rw [hhex, bytesFromHex, fromHex_toHex]
  have hverified : verifyGlobalModel app.host pem modelBytes (.value (.str (String.ofList
      ((Json.decodeUtf8 m.signedAttestation).getD [])))) (.str m.signatureHex) =
      .ok (true, "ok") := by
    refine bind_eq_ok.mpr ⟨_, hpub, bind_eq_ok.mpr ⟨_, encoded_payload hcarries,
      bind_eq_ok.mpr ⟨_, hsignature, ?_⟩⟩⟩
    rw [hsign, if_neg (by decide)]
    rw [readField] at hsha
    cases hloads : Json.loads m.signedAttestation with
    | error e =>
      rw [hloads] at hsha
      cases hsha
    | ok v =>
      rw [hloads] at hsha
      cases v with
      | obj fs =>
        refine bind_eq_ok.mpr ⟨.str (app.host.sha256hex modelBytes), ?_, ?_⟩
        · rw [Json.get]
          dsimp only at hsha
          rw [hsha]
          rfl
        · rw [Json.isStr, if_neg (by simp)]
      | _ => cases hsha
  refine bind_eq_ok.mpr ⟨(), ?_, bind_eq_ok.mpr ⟨m.payload, ?_, bind_eq_ok.mpr
    ⟨.str m.modelB64, rfl, bind_eq_ok.mpr ⟨modelBytes, ?_, ?_⟩⟩⟩⟩
  · rw [hnetwork]
    rfl
  · rw [hnetwork]
  · rw [hcarries.encoded]
    exact hb64
  · rw [if_pos rfl, hpem, Option.getD_some, if_neg hne]
    exact bind_eq_ok.mpr ⟨_, rfl, bind_eq_ok.mpr ⟨_, rfl, bind_eq_ok.mpr
      ⟨(true, "ok"), hverified, rfl⟩⟩⟩

lemma Served.round {pre : List Event} {m : SignedModel}
    (h : Served app (after app pre).world m) :
    ∃ r, (after app pre).world.store.getRound m.roundId = some r := by
  rcases h with ⟨req, k, env, h⟩ | ⟨req, env, version, h⟩
  · obtain ⟨⟨r, hr, -⟩, bytes, -, hcarries⟩ := getRoundGlobalModel_ok h
    rw [hcarries.round]
    exact ⟨r, hr⟩
  · obtain ⟨g, bytes, hg, -, -, hcarries⟩ := getActiveGlobalModel_ok h
    obtain ⟨r, hr, -⟩ := (Consistent.run app pre).round g (Table.get?_mem hg)
    rw [hcarries.round]
    exact ⟨r, hr⟩

lemma ModelSigned.round (h : ModelSigned app es roundId modelBytes) :
    ∃ r, (after app es).world.store.getRound roundId = some r := by
  obtain ⟨pre, post, m, rfl, hserved, -, hround, -⟩ := h
  obtain ⟨bytes, -, hround', -⟩ := hserved.fields
  cases hround.symm.trans hround'
  obtain ⟨r, hr⟩ := hserved.round
  obtain ⟨r', hr', -⟩ := round_run app post hr
  rw [after_append]
  exact ⟨r', hr'⟩

end Fetched

/-! ### Another round -/

/-- An org that trusts the coordinator. -/
def sampleClient : FLClient :=
  ⟨"https://fl.example", some (encode (Sample.ed25519Pem Sample.coordKey))⟩

lemma sampleClient_trusts : sampleClient.Trusts Sample.app :=
  ⟨Sample.coordKey, _, rfl, rfl, by decide +kernel⟩

lemma served_publishedUpload :
    ∃ m bytes, Served Sample.app (after Sample.app publishedUpload).world m ∧
      Carries Sample.app (after Sample.app publishedUpload).world 1 bytes m := by
  have hok : (getRoundGlobalModel Sample.app (Sample.present (Sample.certOf "x" [1] 11)) 1
      { authAt := 400, distributedAt := "1970-01-01T00:06:40+00:00" }
      (after Sample.app publishedUpload).world).1.isOk = true := by decide +kernel
  cases hres : (getRoundGlobalModel Sample.app (Sample.present (Sample.certOf "x" [1] 11)) 1
      { authAt := 400, distributedAt := "1970-01-01T00:06:40+00:00" }
      (after Sample.app publishedUpload).world).1 with
  | error e =>
    rw [hres] at hok
    cases hok
  | ok m =>
    obtain ⟨-, bytes, -, hcarries⟩ := getRoundGlobalModel_ok hres
    exact ⟨m, bytes, Or.inl ⟨_, _, _, hres⟩, hcarries⟩

/-- An answer that carries the model of the first round forges nothing, and is accepted for every
round. -/
lemma replayed_publishedUpload :
    ∃ network modelBytes, NoForgery Sample.app publishedUpload network ∧
      ∀ roundId, sampleClient.fetchGlobalModel Sample.app.host network roundId true =
        .ok modelBytes := by
  obtain ⟨m, bytes, hserved, hcarries⟩ := served_publishedUpload
  refine ⟨fun _ => ⟨200, .ok m.payload⟩, bytes, ?_, ?_⟩
  · intro url coordPriv att sig _ hpresented _
    left
    exact ⟨publishedUpload, [], m, (List.append_nil _).symm, hserved,
      (presented_payload hcarries hpresented).symm⟩
  · intro roundId
    obtain ⟨coordPriv, pem, hkey, hpem, hpub⟩ := sampleClient_trusts
    apply fetchGlobalModel_payload hcarries hkey hpem _ hpub
    · exact fun msg => Sample.verify_tag coordPriv msg
    · simp only [Sample.app, Sample.host, fromHex_toHex]
    · exact fun _ => rfl
    · cases hpem
      decide +kernel

theorem fetched_model_signed_publishedUpload :
    ∃ signedRound modelBytes, ModelSigned Sample.app publishedUpload signedRound modelBytes := by
  obtain ⟨network, modelBytes, hforge, hfetch⟩ := replayed_publishedUpload
  obtain ⟨signedRound, h⟩ := fetched_model_signed sampleClient_trusts hforge (hfetch 1)
  exact ⟨signedRound, modelBytes, h⟩

/-- The client asks for a second round, which does not exist, and takes the model of the first. -/
theorem other_round_fetched :
    ¬∀ es client network roundId modelBytes, FLClient.Trusts client Sample.app →
      NoForgery Sample.app es network →
      client.fetchGlobalModel Sample.app.host network roundId true = .ok modelBytes →
      ModelSigned Sample.app es roundId modelBytes := by
  intro hclaim
  obtain ⟨network, modelBytes, hforge, hfetch⟩ := replayed_publishedUpload
  obtain ⟨r, hr⟩ := (hclaim publishedUpload sampleClient network 2 modelBytes sampleClient_trusts
    hforge (hfetch 2)).round
  have hnone : ((after Sample.app publishedUpload).world.store.getRound 2).isNone = true := by
    decide +kernel
  rw [hr] at hnone
  cases hnone

end FlCoordinator
