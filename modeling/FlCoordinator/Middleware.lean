import FlCoordinator.App

/-!
# Who is calling

`coordinator/mtls_middleware.py` turns the peer certificate of a request into an org id, and
`get_authenticated_org_id` falls back to the API key.
-/

namespace FlCoordinator

open Lib

/-- A certificate value in the ASGI scope. -/
inductive PeerValue
  | der (b : Bytes)
  | pem (s : String)
  | other
  deriving DecidableEq

def PeerValue.truthy : PeerValue → Bool
  | .der b => !b.isEmpty
  | .pem s => s ≠ ""
  | .other => true

/-- A field of the ASGI `tls` extension. -/
inductive TlsField
  | absent
  | one (v : PeerValue)
  | chain (vs : List PeerValue)
  deriving DecidableEq

/-- The value of a field, the first one of a chain. -/
def TlsField.first : TlsField → Option PeerValue
  | .absent => none
  | .one v => if v.truthy then some v else none
  | .chain [] => none
  | .chain (v :: _) => some v

/-- The parts of a request that carry identity. -/
structure Request where
  devOrgId : Option String := none
  sslClientVerify : Option String := none
  sslClientCert : Option String := none
  clientCertChain : TlsField := .absent
  peerCert : TlsField := .absent
  transportDer : Option Bytes := none
  apiKey : Option String := none

/-- `str.upper` on a header value, whose characters are Latin-1. -/
def upperLatin1 (s : String) : String :=
  String.ofList (s.toList.flatMap fun c =>
    if 'a' ≤ c ∧ c ≤ 'z' then [Char.ofNat (c.toNat - 32)]
    else if c.toNat = 181 then [Char.ofNat 924]
    else if c.toNat = 223 then ['S', 'S']
    else if c.toNat = 255 then [Char.ofNat 376]
    else if 224 ≤ c.toNat ∧ c.toNat < 255 ∧ c.toNat ≠ 247 then [Char.ofNat (c.toNat - 32)]
    else [c])

section Extraction

variable (app : App) (req : Request)

/-- The certificate a trusted proxy forwards. -/
def extractCertFromProxyHeader : Option Certificate :=
  if app.trustedProxy = false then none
  else if upperLatin1 (req.sslClientVerify.getD "") ≠ "SUCCESS" then none
  else
    let pem := req.sslClientCert.getD ""
    if pem = "" then none
    else (app.host.loadPemCertificate (encode (app.host.unquote pem))).toOption

/-- The certificate of the TLS extension. -/
def certFromTlsExtension : Option Certificate :=
  let field := if req.clientCertChain.first.isSome then req.clientCertChain else req.peerCert
  match field.first with
  | some (.der b) => if b.isEmpty then none else (app.host.loadDerCertificate b).toOption
  | some (.pem s) => if s = "" then none else (app.host.loadPemCertificate (encode s)).toOption
  | _ => none

def certFromTransport : Option Certificate :=
  match req.transportDer with
  | none => none
  | some der => if der.isEmpty then none else (app.host.loadDerCertificate der).toOption

def extractCertFromScope : Option Certificate :=
  (certFromTlsExtension app req).or (certFromTransport app req)

/-- The certificate a request presents. -/
def presentedCert : Option Certificate :=
  (extractCertFromProxyHeader app req).or (extractCertFromScope app req)

/-- The org id of the development header, where it is allowed. -/
def devHeaderOrgId : Option String :=
  if app.devHeaderAllowed then req.devOrgId.filter (· ≠ "") else none

/-- The checks on a presented certificate, at the time `now`. -/
def orgIdOfCert (w : World) (now : ℚ) (cert : Certificate) : Option String :=
  match app.caCert with
  | none => none
  | some caCert =>
    if verifyCertSignedByCa app.host cert caCert = false then none
    else if isCertExpired cert now then none
    else if (w.crl.map (fun crl => isRevoked crl cert.serialNumber)).getD false then none
    else match (certOrgId cert).filter (· ≠ "") with
      | none => none
      | some orgId =>
        match w.store.getOrg orgId with
        | none => none
        | some org => if org.status = .active then some orgId else none

/-- `MTLSMiddleware._extract_verified_org_id`. -/
def extractVerifiedOrgId (w : World) (now : ℚ) : Option String :=
  match devHeaderOrgId app req with
  | some hdr => some hdr
  | none => (presentedCert app req).bind (orgIdOfCert app w now)

/-- The active org whose stored hash matches the API key. -/
def orgIdOfApiKey (s : Store) (apiKey : String) : Option String :=
  (s.listOrgs.find? (fun org =>
    org.status = .active ∧ org.apiKeyHash = app.host.sha256hex (encode apiKey))).map (·.orgId)

/-- `Depends(get_authenticated_org_id)`, after the middleware ran at the time `now`. -/
def getAuthenticatedOrgId (w : World) (now : ℚ) : Except Failure String :=
  match extractVerifiedOrgId app req w now with
  | some orgId => .ok orgId
  | none =>
    if app.requireMtls then
      .error (.http 401 ("mTLS client certificate required (FL_REQUIRE_MTLS enabled); " ++
        "the X-FL-API-Key bootstrap fallback is disabled"))
    else match (req.apiKey.filter (· ≠ "")).bind (orgIdOfApiKey app w.store) with
      | some orgId => .ok orgId
      | none =>
        .error (.http 401 "Org authentication required (mTLS client cert or X-FL-API-Key header)")

end Extraction

lemma orgIdOfCert_of_revoked {app : App} {w : World} {now : ℚ} {cert : Certificate} {crl : Crl}
    (hcrl : w.crl = some crl) (hserial : cert.serialNumber ∈ crl.revoked) :
    orgIdOfCert app w now cert = none := by
  have hrev : (w.crl.map (fun crl => isRevoked crl cert.serialNumber)).getD false = true := by
    simp [hcrl, isRevoked, hserial]
  unfold orgIdOfCert
  split
  · rfl
  · rw [if_pos hrev]
    split_ifs <;> rfl

lemma active_of_orgIdOfCert {app : App} {w : World} {now : ℚ} {cert : Certificate} {orgId : String}
    (h : orgIdOfCert app w now cert = some orgId) :
    ∃ org, w.store.getOrg orgId = some org ∧ org.status = .active := by
  unfold orgIdOfCert at h
  split at h
  · cases h
  · split_ifs at h
    split at h
    · cases h
    · split at h
      · cases h
      · rename_i org horg
        split_ifs at h with hact
        obtain rfl := Option.some.inj h
        exact ⟨org, horg, hact⟩

/-- An authenticated org of a request without the development header is active. -/
theorem active_of_authenticated {app : App} {req : Request} {w : World} {now : ℚ} {orgId : String}
    (hdev : app.devHeaderAllowed = false)
    (h : getAuthenticatedOrgId app req w now = .ok orgId) :
    ∃ org, w.store.getOrg orgId = some org ∧ org.status = .active := by
  have hnone : devHeaderOrgId app req = none := by simp [devHeaderOrgId, hdev]
  unfold getAuthenticatedOrgId at h
  split at h
  · rename_i orgId' heq
    cases h
    rw [extractVerifiedOrgId, hnone] at heq
    obtain ⟨cert, -, hcert⟩ := Option.bind_eq_some_iff.mp heq
    exact active_of_orgIdOfCert hcert
  · split_ifs at h
    split at h
    · rename_i orgId' heq
      cases h
      obtain ⟨key, -, hkey⟩ := Option.bind_eq_some_iff.mp heq
      obtain ⟨org, hfind, rfl⟩ := Option.map_eq_some_iff.mp hkey
      have hmem := List.mem_of_find?_eq_some hfind
      have hact := List.find?_some hfind
      simp only [decide_eq_true_eq] at hact
      rw [Store.listOrgs, (List.perm_insertionSort _ _).mem_iff] at hmem
      exact ⟨org, Table.get?_of_mem hmem, hact.1⟩
    · cases h

end FlCoordinator
