import FlCoordinator.Enrollment

/-!
# An invited org gets in

An honest org that redeems its token in time is enrolled, can open the package it is sent, and is
recognised by what the package holds.
-/

namespace FlCoordinator

open Lib Handler

/-! ### The libraries -/

/-- Signatures verify, encodings are read back, both sides of a key exchange agree, what was
encrypted decrypts, and a certificate bears the serial that was asked for. -/
structure HostSound (host : Host) : Prop where
  verify_sign : ∀ priv message, host.ed25519Verify (host.ed25519Public priv) message
    (host.ed25519Sign priv message) = true
  sign_length : ∀ priv message, priv.length = 32 → 8 ≤ (host.ed25519Sign priv message).length
  urlsafe : ∀ cs, Json.Ascii cs →
    host.urlsafeB64decode (encode (host.urlsafeB64encode (encodeChars cs))) = .ok (encodeChars cs)
  urlsafe_ascii : ∀ cs, Json.Ascii cs →
    (encode (host.urlsafeB64encode (encodeChars cs))).all (· < 128)
  urlsafe_length : ∀ cs, Json.Ascii cs →
    cs.length ≤ (host.urlsafeB64encode (encodeChars cs)).length
  b64 : ∀ b, host.b64decode (host.b64encode b) = .ok b
  x25519_length : ∀ priv, priv.length = 32 → (host.x25519Public priv).length = 32
  exchange : ∀ a b, a.length = 32 → b.length = 32 →
    ∃ shared, host.x25519Exchange a (host.x25519Public b) = .ok shared ∧
      host.x25519Exchange b (host.x25519Public a) = .ok shared
  decrypt_encrypt : ∀ shared salt info plaintext aad,
    host.chachaDecrypt (host.hkdf shared salt info) sealNonce
      (host.chachaEncrypt (host.hkdf shared salt info) sealNonce plaintext aad) aad = .ok plaintext
  certSerial : ∀ key algorithm request cert,
    host.signCertificate key algorithm request = .ok cert →
      cert.serialNumber = request.serialNumber

/-- The key pairs of an org, with the PEM texts of the public keys. -/
structure OrgKeys (host : Host) where
  edPriv : Bytes
  xPriv : Bytes
  edPem : String
  xPem : String
  edPem_loads : host.loadPemPublicKey (encode edPem) = .ok (.ed25519 (host.ed25519Public edPriv))
  xPem_loads : host.loadPemPublicKey (encode xPem) = .ok (.x25519 (host.x25519Public xPriv))
  priv_lengths : edPriv.length = 32 ∧ xPriv.length = 32
  pem_lengths : 20 ≤ edPem.length ∧ 20 ≤ xPem.length

/-! ### Wire forms -/

section Wire

variable {host : Host}

lemma ascii_toHex (b : Bytes) : Json.Ascii (toHex b).toList := by
  intro c hc
  rw [toHex, String.toList_ofList] at hc
  obtain ⟨x, -, hx⟩ := List.mem_flatMap.mp hc
  have hlt : x.toNat < 256 := x.toNat_lt
  simp only [List.mem_cons, List.not_mem_nil, or_false] at hx
  rcases hx with rfl | rfl
  · exact Json.hexDigit_ascii _ (by omega)
  · exact Json.hexDigit_ascii _ (by omega)

lemma hexDigit_ne_dot : ∀ d < 16, UInt8.ofNat (hexDigit d).toNat ≠ dot := by decide

lemma dot_notMem_toHex (b : Bytes) : dot ∉ encode (toHex b) := by
  rw [encode_eq, Json.encodeChars_ascii (ascii_toHex b), toHex, String.toList_ofList]
  intro h
  obtain ⟨c, hc, hdot⟩ := List.mem_map.mp h
  obtain ⟨x, -, hx⟩ := List.mem_flatMap.mp hc
  have hlt : x.toNat < 256 := x.toNat_lt
  simp only [List.mem_cons, List.not_mem_nil, or_false] at hx
  rcases hx with rfl | rfl
  · exact hexDigit_ne_dot _ (by omega) hdot
  · exact hexDigit_ne_dot _ (by omega) hdot

/-- The characters of a token before their encoding. -/
def tokenChars (cs : List Char) (sig : Bytes) : List Char := cs ++ '.' :: (toHex sig).toList

lemma ascii_tokenChars {cs : List Char} (hcs : Json.Ascii cs) (sig : Bytes) :
    Json.Ascii (tokenChars cs sig) :=
  Json.ascii_append.mpr ⟨hcs, Json.ascii_cons.mpr ⟨by decide, ascii_toHex sig⟩⟩

lemma encodeChars_tokenChars (cs : List Char) (sig : Bytes) :
    encodeChars (tokenChars cs sig) = encodeChars cs ++ dot :: encode (toHex sig) := by
  rw [tokenChars, encodeChars_append, encode_eq]
  rfl

lemma unpackToken_packToken (h : HostSound host) {cs : List Char} (hcs : Json.Ascii cs)
    (sig : Bytes) :
    unpackToken host (packToken host (encodeChars cs) sig) = some (encodeChars cs, sig) := by
  have hraw := h.urlsafe _ (ascii_tokenChars hcs sig)
  have hsplit := rsplitOnce_append dot (encodeChars cs) (encode (toHex sig)) (dot_notMem_toHex sig)
  have hread : Json.decodeUtf8 (encode (toHex sig)) = some (toHex sig).toList := by
    rw [encode_eq, Json.encodeChars_ascii (ascii_toHex sig)]
    exact Json.decodeUtf8_ascii (ascii_toHex sig)
  have hsig : fromHexChars (toHex sig).toList = some sig := fromHex_toHex sig
  rw [encodeChars_tokenChars] at hraw
  simp [unpackToken, packToken, hraw, Except.toOption, hsplit, hread, hsig]

lemma unseal_seal (h : HostSound host) (keys : OrgKeys host) {ephPriv : Bytes}
    (heph : ephPriv.length = 32) (plaintext : Bytes) :
    ∃ sealed, sealPackage host keys.xPem plaintext ephPriv = .ok sealed ∧
      unsealPackage host keys.xPriv sealed = .ok plaintext := by
  obtain ⟨shared, hseal, hopen⟩ := h.exchange ephPriv keys.xPriv heph keys.priv_lengths.2
  have hlen := h.x25519_length ephPriv heph
  have hload : x25519PublicFromPem host (encode keys.xPem) = .ok (host.x25519Public keys.xPriv) := by
    rw [x25519PublicFromPem, keys.xPem_loads]
  refine ⟨_, by rw [sealPackage, hload]; simp only [hseal]; rfl, ?_⟩
  rw [unsealPackage, h.b64]
  simp only [List.take_left' hlen, List.drop_left' hlen, hopen]
  exact h.decrypt_encrypt _ _ _ _ _

end Wire

/-! ### The token and the request made with it -/

section Request

variable {app : App} {w : World}

/-- The answer to a successful minting. -/
structure MintAnswer (app : App) (body : EnrollTokenRequest) (env : MintEnv) (coordPriv : Bytes)
    (caCert : Certificate) (resp : MintResponse) : Prop where
  token : resp.token = packToken app.host (tokenAttestation body env)
    (sign app.host coordPriv (tokenAttestation body env))
  caSha256 : resp.caSha256 = app.host.sha256hex (encode (app.host.certificatePem caCert))
  expiresAt : resp.expiresAt = env.now + body.ttlMinutes * 60

lemma mintAnswer_of_ok {user : Option FLUser} {body : EnrollTokenRequest} {env : MintEnv}
    {resp : MintResponse} (h : (mintEnrollToken app user body env w).1 = .ok resp) :
    ∃ coordPriv caCert, app.coordPriv = some coordPriv ∧ app.caCert = some caCert ∧
      MintAnswer app body env coordPriv caCert resp := by
  have hspec : (mintEnrollToken app user body env).wp (fun r _ => r = .ok resp →
      ∃ coordPriv caCert, app.coordPriv = some coordPriv ∧ app.caCert = some caCert ∧
        MintAnswer app body env coordPriv caCert resp) w := by
    unfold mintEnrollToken
    apply wp_flRequire_bind (fun _ e he => by cases he)
    intro u _ _
    apply wp_query_bind
    apply wp_ensure_bind (fun _ he => by cases he)
    intro _
    apply wp_orRaise_bind (fun _ he => by cases he)
    intro keys hkeys
    apply wp_tryExecute_bind (fun e _ he => by cases he)
    intro s _
    apply wp_log_bind
    intro hresp
    cases hresp
    obtain ⟨coordPriv, hcoord, hcert⟩ := Option.bind_eq_some_iff.mp hkeys
    obtain ⟨caCert, hca, rfl⟩ := Option.map_eq_some_iff.mp hcert
    exact ⟨coordPriv, caCert, hcoord, hca, rfl, rfl, rfl⟩
  exact hspec h

/-- The attestation of a token is printable text, of some length by its keys alone. -/
lemma tokenAttestation_eq (body : EnrollTokenRequest) (env : MintEnv) :
    ∃ cs, Json.Ascii cs ∧ 8 ≤ cs.length ∧ tokenAttestation body env = encodeChars cs := by
  refine ⟨_, Json.ascii_text Json.readable_compact _, ?_, rfl⟩
  have hkey : (Json.strText "display_name").length = 14 := by decide
  simp [Json.sortKeys, Json.sortKeysFields, List.insertionSort, List.orderedInsert, Json.text, hkey]
  omega

/-- The request of an org with these keys: the token as it was given, and its own signature over
the token and the X25519 key. -/
structure Honest {host : Host} (keys : OrgKeys host) (given org : String)
    (body : EnrollWithTokenRequest) : Prop where
  token : body.token = given
  orgId : body.orgId = org
  ed25519PubPem : body.ed25519PubPem = keys.edPem
  x25519PubPem : body.x25519PubPem = keys.xPem
  popSignature : ∃ att, buildEnrollPop host given keys.xPem = .ok att ∧
    body.popSignature = toHex (sign host keys.edPriv att)

lemma unpackToken_minted (hsound : HostSound app.host) {body : EnrollTokenRequest} {env : MintEnv}
    {coordPriv : Bytes} {caCert : Certificate} {resp : MintResponse}
    (h : MintAnswer app body env coordPriv caCert resp) :
    unpackToken app.host resp.token = some (tokenAttestation body env,
      sign app.host coordPriv (tokenAttestation body env)) := by
  obtain ⟨cs, hcs, -, hatt⟩ := tokenAttestation_eq body env
  rw [h.token, hatt]
  exact unpackToken_packToken hsound hcs _

lemma token_of_minted (hsound : HostSound app.host) {body : EnrollTokenRequest} {env : MintEnv}
    {coordPriv : Bytes} {caCert : Certificate} {resp : MintResponse}
    (h : MintAnswer app body env coordPriv caCert resp) :
    (encode resp.token).all (· < 128) ∧ 8 ≤ resp.token.length := by
  obtain ⟨cs, hcs, hlen, hatt⟩ := tokenAttestation_eq body env
  have hascii := ascii_tokenChars hcs (sign app.host coordPriv (encodeChars cs))
  rw [h.token, hatt, packToken, ← encodeChars_tokenChars]
  refine ⟨hsound.urlsafe_ascii _ hascii, le_trans ?_ (hsound.urlsafe_length _ hascii)⟩
  rw [tokenChars, List.length_append]
  exact hlen.trans (Nat.le_add_right _ _)

lemma exists_honest (hsound : HostSound app.host) (keys : OrgKeys app.host)
    {body : EnrollTokenRequest} {env : MintEnv} {coordPriv : Bytes} {caCert : Certificate}
    {resp : MintResponse} (h : MintAnswer app body env coordPriv caCert resp) :
    ∃ request, Honest keys resp.token body.orgId request := by
  obtain ⟨hascii, hlen⟩ := token_of_minted hsound h
  have hpop : ∃ att, buildEnrollPop app.host resp.token keys.xPem = .ok att :=
    ⟨_, if_pos hascii⟩
  obtain ⟨att, hatt⟩ := hpop
  have hsig := hsound.sign_length keys.edPriv att keys.priv_lengths.1
  have htext := toHex_length (sign app.host keys.edPriv att)
  refine ⟨{
    token := resp.token
    orgId := body.orgId
    ed25519PubPem := keys.edPem
    x25519PubPem := keys.xPem
    popSignature := toHex (sign app.host keys.edPriv att)
    isOrgId := body.isOrgId
    lengths := ⟨hlen, keys.pem_lengths.1, keys.pem_lengths.2, ?_⟩ }, rfl, rfl, rfl, rfl, att,
        hatt, rfl⟩
  rw [htext]
  change 16 ≤ 2 * (app.host.ed25519Sign keys.edPriv att).length
  omega

lemma Honest.publicKey {keys : OrgKeys app.host} {given org : String}
    {body : EnrollWithTokenRequest} (h : Honest keys given org body) :
    publicKeyFromPem app.host (encode body.ed25519PubPem) =
      .ok (app.host.ed25519Public keys.edPriv) := by
  rw [h.ed25519PubPem, publicKeyFromPem, keys.edPem_loads]

lemma Honest.recipient {keys : OrgKeys app.host} {given org : String}
    {body : EnrollWithTokenRequest} (h : Honest keys given org body) :
    x25519PublicFromPem app.host (encode body.x25519PubPem) =
      .ok (app.host.x25519Public keys.xPriv) := by
  rw [h.x25519PubPem, x25519PublicFromPem, keys.xPem_loads]

lemma checked_of_honest (hsound : HostSound app.host) {mint : EnrollTokenRequest} {draws : MintEnv}
    {coordPriv : Bytes} {caCert : Certificate} {minted : MintResponse}
    {keys : OrgKeys app.host} {body : EnrollWithTokenRequest}
    (hcoord : app.coordPriv = some coordPriv)
    (h : MintAnswer app mint draws coordPriv caCert minted)
    (hbody : Honest keys minted.token mint.orgId body) :
    ∃ tok, TokenChecked app body tok (some draws.jti) ∧
      tok.item "display_name" = .ok (.str mint.displayName) := by
  obtain ⟨tok, hloads, htype, horg, hjti, hname⟩ := loads_tokenAttestation mint draws
  obtain ⟨att, hatt, hpop⟩ := hbody.popSignature
  have hparts := unpackToken_minted hsound h
  rw [← hbody.token] at hparts hatt
  rw [← hbody.x25519PubPem] at hatt
  have hsig : fromHex body.popSignature = some (sign app.host keys.edPriv att) := by
    rw [hpop]
    exact fromHex_toHex _
  refine ⟨tok, ⟨⟨coordPriv, _, _, hcoord, hparts, hsound.verify_sign _ _, hloads⟩,
    ⟨_, htype, by simp [Json.isStr]⟩, ⟨_, horg, by simp [Json.isStr, hbody.orgId]⟩,
    ⟨_, att, _, hbody.publicKey, hatt, hsig, hsound.verify_sign _ _⟩, ⟨_, hjti, rfl⟩⟩, hname⟩

end Request

/-! ### The redemption -/

section Redemption

variable {app : App} {w : World} {coordPriv : Bytes} {caPriv : CaKey} {caCert : Certificate}

lemma enrollWithToken_of_checked {body : EnrollWithTokenRequest} {env : RedeemEnv} {tok : Json}
    {jti : Option String} {mid : Store} {pub : Bytes} {name sealed : String} {cert : Certificate}
    (hcoord : app.coordPriv = some coordPriv) (hca : app.ca = some (caPriv, caCert))
    (hchecked : TokenChecked app body tok jti)
    (hpub : publicKeyFromPem app.host (encode body.ed25519PubPem) = .ok pub)
    (hrecip : ∃ recip, x25519PublicFromPem app.host (encode body.x25519PubPem) = .ok recip)
    (hred : Redeemed body.orgId env.consumedAt jti w.store mid)
    (hname : tok.item "display_name" = .ok (.str name))
    (hcert : issueClientCert app.host caPriv caCert pub body.orgId (.str name) env.enroll.serial
      env.enroll.issuedAt = .ok cert)
    (hfree : mid.enrollConflict body.orgId = none)
    (hsealed : sealPackage app.host body.x25519PubPem (Json.dumpsBytes (enrollmentPackage app
      coordPriv caCert cert body.orgId env.enroll.apiKey)) env.ephPriv = .ok sealed) :
    (enrollWithToken app body env).wp
      (fun r t => r = .ok ⟨body.orgId, sealed⟩ ∧ t.crl = w.crl ∧
        ∃ e, Installs app body.orgId body.ed25519PubPem env.enroll e ∧
          t.store = mid.insertOrg e env.enroll.enrolledAt) w := by
  obtain ⟨v, hitem, -⟩ := hchecked.named
  have hpresents : Presents app body ⟨coordPriv, caPriv, caCert, tok, pub, v, jti⟩ :=
    { coordPriv := hcoord
      ca := hca
      checked := hchecked
      publicKey := hpub
      recipient := hrecip
      jti := hitem }
  apply wp_enrollWithToken_of hpresents
  unfold redeemChecked
  apply wp_insert_bind
  rw [hred.consumed]
  apply wp_ensure_bind_of rfl
  apply wp_attempt_bind_of hname
  apply wp_attempt_bind_of hcert
  apply wp_query_bind
  apply wp_ensure_bind_of hfree
  apply wp_attempt_bind_of (a := some name) rfl
  apply wp_orRaise_bind_of rfl
  apply wp_execute_bind
  apply wp_attempt_bind_of hsealed
  apply wp_log_bind
  exact ⟨rfl, rfl, _, ⟨rfl, rfl, rfl, (caPriv, caCert), pub, _, cert, hcert, hca, rfl, rfl⟩, rfl⟩

end Redemption

/-! ### Being recognised -/

section Recognition

variable {app : App} {s : Sys} {x : String} {n : ℤ} {apiKey : String}

/-- The org is active, and no other org has its API key or the serial of its certificate. -/
structure Recognized (app : App) (x : String) (n : ℤ) (apiKey : String) (s : Sys) : Prop where
  active : ∃ row, s.world.store.getOrg x = some row ∧ row.status = .active ∧
    row.apiKeyHash = app.host.sha256hex (encode apiKey)
  sole : ∀ y row, y ≠ x → s.world.store.getOrg y = some row →
    row.apiKeyHash ≠ app.host.sha256hex (encode apiKey) ∧ row.certSerial ≠ some n
  unlisted : ¬Listed n s

/-- Requests with the API key, and no other identity, come from the org `x`. -/
def KeyIdentifies (app : App) (apiKey x : String) (s : Sys) : Prop :=
  ∀ req now, req.apiKey = some apiKey → extractVerifiedOrgId app req s.world now = none →
    getAuthenticatedOrgId app req s.world now = .ok x

/-- During the year from `issuedAt`, requests that present the certificate come from the org
`x`. -/
def CertIdentifies (app : App) (certPem x : String) (issuedAt : ℚ) (s : Sys) : Prop :=
  ∃ cert, app.host.loadPemCertificate (encode certPem) = .ok cert ∧
    ∀ req now, presentedCert app req = some cert → devHeaderOrgId app req = none →
      issuedAt ≤ now → now < issuedAt + 365 * 86400 - 1 →
      extractVerifiedOrgId app req s.world now = some x ∧
        getAuthenticatedOrgId app req s.world now = .ok x

lemma Recognized.keyIdentifies (h : Recognized app x n apiKey s) (hmtls : app.requireMtls = false)
    (hkey : apiKey ≠ "") : KeyIdentifies app apiKey x s := by
  intro req now hreq hnone
  obtain ⟨row, hrow, hactive, hhash⟩ := h.active
  have hfind : orgIdOfApiKey app s.world.store apiKey = some x := by
    unfold orgIdOfApiKey
    cases hf : s.world.store.listOrgs.find? (fun org => org.status = .active ∧
        org.apiKeyHash = app.host.sha256hex (encode apiKey)) with
    | none =>
      have hmem : row ∈ s.world.store.listOrgs := by
        rw [Store.listOrgs, (List.perm_insertionSort _ _).mem_iff]
        exact Table.get?_mem hrow
      have hno := List.find?_eq_none.mp hf row hmem
      simp [hactive, hhash] at hno
    | some other =>
      have hmem := List.mem_of_find?_eq_some hf
      have hother := List.find?_some hf
      simp only [decide_eq_true_eq] at hother
      rw [Store.listOrgs, (List.perm_insertionSort _ _).mem_iff] at hmem
      have hsame : other.orgId = x := by
        by_contra hne
        exact (h.sole other.orgId other hne (Table.get?_of_mem hmem)).1 hother.2
      exact congrArg some hsame
  have hfilter : (req.apiKey.filter (· ≠ "")) = some apiKey := by
    rw [hreq]
    simp [hkey]
  rw [getAuthenticatedOrgId, hnone]
  simp only [hmtls, hfilter, Option.bind_some, hfind, Bool.false_eq_true, if_false]

lemma orgIdOfCert_of {w : World} {caCert cert : Certificate} {row : OrgRow} {now : ℚ}
    (hca : app.caCert = some caCert) (hsigned : verifyCertSignedByCa app.host cert caCert = true)
    (hvalid : isCertExpired cert now = false)
    (hlisted : ∀ crl, w.crl = some crl → cert.serialNumber ∉ crl.revoked)
    (hname : cert.commonName = some x) (hx : x ≠ "") (hrow : w.store.getOrg x = some row)
    (hactive : row.status = .active) : orgIdOfCert app w now cert = some x := by
  have hcrl : (w.crl.map (fun crl => isRevoked crl cert.serialNumber)).getD false = false := by
    cases hc : w.crl with
    | none => rfl
    | some crl => simpa [isRevoked] using hlisted crl hc
  have hcn : (certOrgId cert).filter (· ≠ "") = some x := by simp [certOrgId, hname, hx]
  simp only [orgIdOfCert, hca, hsigned, hvalid, hcrl, hcn, hrow, hactive, Bool.true_eq_false,
    Bool.false_eq_true, if_false, if_true]

lemma Recognized.certIdentifies {caCert cert : Certificate} {certPem : String} {issuedAt : ℚ}
    (h : Recognized app x n apiKey s) (hca : app.caCert = some caCert)
    (hload : app.host.loadPemCertificate (encode certPem) = .ok cert)
    (hsigned : verifyCertSignedByCa app.host cert caCert = true)
    (hname : cert.commonName = some x) (hx : x ≠ "") (hserial : cert.serialNumber = n)
    (hfrom : cert.notValidBefore ≤ issuedAt)
    (huntil : issuedAt + 365 * 86400 - 1 ≤ cert.notValidAfter) :
    CertIdentifies app certPem x issuedAt s := by
  refine ⟨cert, hload, fun req now hpresented hdev hstart hend => ?_⟩
  obtain ⟨row, hrow, hactive, -⟩ := h.active
  have hvalid : isCertExpired cert now = false := by
    rw [isCertExpired, decide_eq_false_iff_not, not_or, not_le, not_lt]
    exact ⟨hend.trans_le huntil, hfrom.trans hstart⟩
  have hlisted : ∀ crl, s.world.crl = some crl → cert.serialNumber ∉ crl.revoked :=
    fun crl hcrl hmem => h.unlisted ⟨crl, hcrl, hserial ▸ hmem⟩
  have hid : extractVerifiedOrgId app req s.world now = some x := by
    rw [extractVerifiedOrgId, hdev, hpresented]
    exact orgIdOfCert_of hca hsigned hvalid hlisted hname hx hrow hactive
  exact ⟨hid, by rw [getAuthenticatedOrgId, hid]⟩

/-- A step that leaves the row of `x` alone and, if it enrolls another org, draws another key and
another serial for it. -/
structure LeavesAlone (app : App) (x : String) (n : ℤ) (apiKey : String) (s : Sys) (e : Event) :
    Prop where
  row : ((next app e s).world.store.getOrg x).map OrgRow.core =
    (s.world.store.getOrg x).map OrgRow.core
  draws : ∀ y pem env, e.enrollment = some (y, pem, env) →
    app.host.sha256hex (encode env.apiKey) ≠ app.host.sha256hex (encode apiKey) ∧ env.serial ≠ n

lemma serial_of_issued {caPriv : CaKey} {caCert cert : Certificate} {pub : Bytes}
    {orgId : String} {name : Json} {serial : ℤ} {now : ℚ} (hsound : HostSound app.host)
    (h : issueClientCert app.host caPriv caCert pub orgId name serial now = .ok cert) :
    cert.serialNumber = serial := by
  unfold issueClientCert at h
  split at h
  · exact hsound.certSerial _ _ _ _ h
  · cases h

/-- After any event the CRL is the one before, or lists the revoked orgs of the new state. -/
lemma crl_next (app : App) (s : Sys) (e : Event) : (next app e s).world.crl = s.world.crl ∨
    ∃ crl, (next app e s).world.crl = some crl ∧
      crl.revoked = (next app e s).world.store.listRevokedSerials := by
  have hrebuilt : ∀ {env : CrlEnv} {t : World},
      CrlRebuilt app env t.store (s.world.setStore t.store) t →
      t.crl = s.world.crl ∨ ∃ crl, t.crl = some crl ∧ crl.revoked = t.store.listRevokedSerials := by
    intro env t h
    by_cases hwrite : app.ca.isSome ∧ env.writable = true
    · exact Or.inr (h.rebuilt hwrite.1 hwrite.2)
    · exact Or.inl (h.kept hwrite)
  cases hrev : revokes app e s.world with
  | none => exact Or.inl (crl_next_of_none hrev)
  | some y =>
    rcases revokes_effect hrev with ⟨user, env, t, rfl, -, h⟩ | ⟨user, env, rfl, h⟩
    · exact hrebuilt h
    · exact hrebuilt h.crl

lemma Recognized.next (hsound : HostSound app.host) {e : Event}
    (h : Recognized app x n apiKey s) (hleaves : LeavesAlone app x n apiKey s e) :
    Recognized app x n apiKey (next app e s) := by
  obtain ⟨row, hrow, hactive, hhash⟩ := h.active
  have hcore := hleaves.row
  rw [hrow] at hcore
  obtain ⟨row', hrow', heq⟩ := Option.map_eq_some_iff.mp hcore
  have hactive' : row'.status = .active := ((congrArg OrgRow.status heq :)).trans hactive
  have hhash' : row'.apiKeyHash = row.apiKeyHash := (congrArg OrgRow.apiKeyHash heq :)
  have hsole : ∀ y r, y ≠ x → (FlCoordinator.next app e s).world.store.getOrg y = some r →
      r.apiKeyHash ≠ app.host.sha256hex (encode apiKey) ∧ r.certSerial ≠ some n := by
    intro y r hy hr
    cases (next_effect app s e).rowMove y with
    | kept core =>
      rw [hr] at core
      obtain ⟨old, hold, hsame⟩ := Option.map_eq_some_iff.mp core.symm
      have hkey : old.apiKeyHash = r.apiKeyHash := (congrArg OrgRow.apiKeyHash hsame :)
      have hcert : old.certSerial = r.certSerial := (congrArg OrgRow.certSerial hsame :)
      exact hkey ▸ hcert ▸ h.sole y old hy hold
    | enrolled pem env en event free installs new =>
      obtain ⟨hkey, hserial⟩ := hleaves.draws y pem env event
      obtain ⟨ca, pub, name, cert, hissue, -, hcert, -⟩ := installs.cert
      obtain rfl := Option.some.inj (hr.symm.trans new)
      refine ⟨fun heq => hkey (installs.apiKeyHash.symm.trans heq), fun heq => hserial ?_⟩
      rw [← serial_of_issued hsound hissue]
      exact Option.some.inj (hcert.symm.trans heq)
    | status old st event hold new =>
      obtain rfl := Option.some.inj (hr.symm.trans new)
      exact h.sole y old hy hold
    | left req body env old event hold asked evidence new =>
      obtain rfl := Option.some.inj (hr.symm.trans new)
      exact h.sole y old hy hold
    | removed user env coordPriv old event key hold leaving new =>
      obtain rfl := Option.some.inj (hr.symm.trans new)
      exact h.sole y old hy hold
  refine ⟨⟨row', hrow', hactive', hhash'.trans hhash⟩, hsole, ?_⟩
  rintro ⟨crl, hcrl, hmem⟩
  rcases crl_next app s e with hkept | ⟨crl', hcrl', hlist⟩
  · exact h.unlisted ⟨crl, hkept.symm.trans hcrl, hmem⟩
  · obtain rfl := Option.some.inj (hcrl.symm.trans hcrl')
    rw [hlist, Store.mem_listRevokedSerials] at hmem
    obtain ⟨r, hr, hrevoked, hserial⟩ := hmem
    by_cases hx : r.orgId = x
    · rw [hx, hrow'] at hr
      obtain rfl := Option.some.inj hr
      rw [hactive'] at hrevoked
      cases hrevoked
    · exact (hsole r.orgId r hx hr).2 hserial

lemma Recognized.run (hsound : HostSound app.host) (h : Recognized app x n apiKey s)
    {later : List Event}
    (hleaves : ∀ p ∈ visits (FlCoordinator.next app) s later, LeavesAlone app x n apiKey p.1 p.2) :
    Recognized app x n apiKey (Lib.run (FlCoordinator.next app) s later) :=
  run_invariant (FlCoordinator.next app) (fun _ _ h hok => h.next hsound hok) h later hleaves

end Recognition

/-! ### From the token to the certificate -/

section Completeness

variable {app : App}

/-- The certificate request of an enrollment. -/
def certRequest (caCert : Certificate) (pub : Bytes) (orgId displayName : String) (serial : ℤ)
    (now : ℚ) : CertRequest where
  commonName := orgId
  organization := displayName
  organizationalUnit := "fl-client"
  issuer := caCert.subject
  publicKey := pub
  issuerKey := caCert.publicKey
  serialNumber := serial
  notValidBefore := now - 60
  notValidAfter := now + 365 * 86400

lemma issueClientCert_eq {host : Host} (caPriv : CaKey) (caCert : Certificate) (pub : Bytes)
    (orgId : String) {displayName : String} (serial : ℤ) (now : ℚ) (hname : displayName ≠ "") :
    issueClientCert host caPriv caCert pub orgId (.str displayName) serial now =
      host.signCertificate caPriv (caSignAlgorithm caPriv)
        (certRequest caCert pub orgId displayName serial now) := by
  have horganization : (Json.str displayName).orElse (.str orgId) = .str displayName := by
    simp [Json.orElse, Json.truthy, hname]
  rw [issueClientCert, horganization]
  rfl

/-- The CA answers the request with a certificate that has its name and, to the second, its
dates, verifies under the CA and is read back from PEM. -/
def Issues (host : Host) (caPriv : CaKey) (caCert : Certificate) (request : CertRequest) : Prop :=
  ∃ cert, host.signCertificate caPriv (caSignAlgorithm caPriv) request = .ok cert ∧
    cert.commonName = some request.commonName ∧ cert.notValidBefore ≤ request.notValidBefore ∧
    request.notValidAfter < cert.notValidAfter + 1 ∧
    verifyCertSignedByCa host cert caCert = true ∧
    host.loadPemCertificate (encode (host.certificatePem cert)) = .ok cert

/-- The moment of a redemption: the token is neither expired nor used, the org is absent or
revoked, and the key and the serial that will be drawn for it are fresh. -/
structure Redeemable (app : App) (mint : EnrollTokenRequest) (draws : MintEnv)
    (minted : MintResponse) (env : RedeemEnv) (s : Sys) : Prop where
  live : env.consumedAt < minted.expiresAt
  unused : ∀ stored ∈ s.world.store.tokens.get? draws.jti, stored.consumed = false
  free : ∀ org ∈ s.world.store.getOrg mint.orgId, org.status = .revoked
  apiKey : env.enroll.apiKey ≠ ""
  fresh : ∀ y org, y ≠ mint.orgId → s.world.store.getOrg y = some org →
    org.apiKeyHash ≠ app.host.sha256hex (encode env.enroll.apiKey) ∧
      org.certSerial ≠ some env.enroll.serial
  unlisted : ¬Listed env.enroll.serial s
  ephemeral : env.ephPriv.length = 32

/-- The org opens its package and finds these texts in it. -/
def Opens {host : Host} (keys : OrgKeys host) (sealed caPem apiKey certPem : String) : Prop :=
  ∃ plain package, unsealPackage host keys.xPriv sealed = .ok plain ∧
    Json.loads plain = .ok package ∧ package.item "ca_cert_pem" = .ok (.str caPem) ∧
    package.item "api_key" = .ok (.str apiKey) ∧
    package.item "client_cert_pem" = .ok (.str certPem)

/-- The redemption is answered with a package that the org opens, the CA certificate in it is the
one announced with the token, and the key and the certificate in it identify the org until
somebody changes its row. -/
structure Onboarded (app : App) (keys : OrgKeys app.host) (minted : MintResponse) (x : String)
    (body : EnrollWithTokenRequest) (env : RedeemEnv) (s : Sys)
    (sealed caPem apiKey certPem : String) : Prop where
  answered : (enrollWithToken app body env s.world).1 = .ok ⟨x, sealed⟩
  opens : Opens keys sealed caPem apiKey certPem
  anchor : app.host.sha256hex (encode caPem) = minted.caSha256
  identified : ∀ later,
    (∀ p ∈ visits (next app) (next app (.redeemToken body env) s) later,
      LeavesAlone app x env.enroll.serial apiKey p.1 p.2) →
    (app.requireMtls = false → KeyIdentifies app apiKey x
      (Lib.run (next app) (next app (.redeemToken body env) s) later)) ∧
    CertIdentifies app certPem x env.enroll.issuedAt
      (Lib.run (next app) (next app (.redeemToken body env) s) later)

lemma opens_enrollmentPackage (hsound : HostSound app.host) (keys : OrgKeys app.host)
    {ephPriv : Bytes} (heph : ephPriv.length = 32) (coordPriv : Bytes)
    (caCert cert : Certificate) (orgId apiKey : String) :
    ∃ sealed, sealPackage app.host keys.xPem (Json.dumpsBytes (enrollmentPackage app coordPriv
        caCert cert orgId apiKey)) ephPriv = .ok sealed ∧
      Opens keys sealed (app.host.certificatePem caCert) apiKey
        (app.host.certificatePem cert) := by
  obtain ⟨sealed, hsealed, hopen⟩ := unseal_seal hsound keys heph
    (Json.dumpsBytes (enrollmentPackage app coordPriv caCert cert orgId apiKey))
  have hplain : Json.Plain (enrollmentPackage app coordPriv caCert cert orgId apiKey) :=
    Json.plain_obj.mpr ⟨by simp, by simp [Json.Plain]⟩
  exact ⟨sealed, hsealed, _, _, hopen, Json.loads_dumpsBytes hplain, rfl, rfl, rfl⟩

lemma recognized_of_enrolled {mint : EnrollTokenRequest} {draws : MintEnv}
    {minted : MintResponse} {body : EnrollWithTokenRequest} {env : RedeemEnv} {s t : Sys}
    {jti : Option String} {mid : Store} {e : Store.Enrollment}
    (hmoment : Redeemable app mint draws minted env s) (horg : body.orgId = mint.orgId)
    (hred : Redeemed body.orgId env.consumedAt jti s.world.store mid)
    (hinst : Installs app body.orgId body.ed25519PubPem env.enroll e)
    (hstore : t.world.store = mid.insertOrg e env.enroll.enrolledAt)
    (hcrl : t.world.crl = s.world.crl) :
    Recognized app mint.orgId env.enroll.serial env.enroll.apiKey t := by
  have he : e.orgId = mint.orgId := hinst.org.trans horg
  obtain ⟨stored, -, -, -, -, -, hmid⟩ := Store.consumeEnrollToken_ok hred.consumed
  refine ⟨⟨e.row env.enroll.enrolledAt, ?_, rfl, hinst.apiKeyHash⟩, fun y row hy hrow => ?_, ?_⟩
  · rw [hstore, Store.getOrg_insertOrg, if_pos he]
  · rw [hstore, Store.getOrg_insertOrg, if_neg (fun h => hy (h.symm.trans he)), hmid] at hrow
    exact hmoment.fresh y row hy hrow
  · rintro ⟨crl, hlisted, hmem⟩
    exact hmoment.unlisted ⟨crl, hcrl.symm.trans hlisted, hmem⟩

/-- Self-enrollment is complete: the org that was given a token can make its request, and every
such request, at a moment when the token is redeemable, brings it in. -/
theorem self_enrollment_complete (hsound : HostSound app.host)
    (hca : app.caCert.isSome → app.caPriv.isSome) {s : Sys} {user : Option FLUser}
    {mint : EnrollTokenRequest} {draws : MintEnv} {minted : MintResponse}
    (hmint : (mintEnrollToken app user mint draws s.world).1 = .ok minted) (mid : List Event)
    (keys : OrgKeys app.host) (env : RedeemEnv)
    (hmoment : Redeemable app mint draws minted env
      (Lib.run (next app) s (.mintToken user mint draws :: mid)))
    (hissues : ∀ caPriv caCert, app.ca = some (caPriv, caCert) →
      Issues app.host caPriv caCert (certRequest caCert (app.host.ed25519Public keys.edPriv)
        mint.orgId mint.displayName env.enroll.serial env.enroll.issuedAt)) :
    (∃ body, Honest keys minted.token mint.orgId body) ∧
      ∀ body, Honest keys minted.token mint.orgId body → ∃ sealed caPem apiKey certPem,
        Onboarded app keys minted mint.orgId body env
          (Lib.run (next app) s (.mintToken user mint draws :: mid)) sealed caPem apiKey
          certPem := by
  obtain ⟨coordPriv, caCert, hcoord, hcaCert, hanswer⟩ := mintAnswer_of_ok hmint
  refine ⟨exists_honest hsound keys hanswer, fun body hbody => ?_⟩
  have hok : (mintEnrollToken app user mint draws s.world).1.isOk := by
    rw [hmint]
    rfl
  obtain ⟨row, hrow, hrowOrg, hexp⟩ := tokenRow_of_mint hok mid
  generalize Lib.run (next app) s (.mintToken user mint draws :: mid) = u at hmoment hrow ⊢
  -- the CA
  obtain ⟨caPriv, hcaPriv⟩ := Option.isSome_iff_exists.mp (hca (by rw [hcaCert]; rfl))
  have hkeys : app.ca = some (caPriv, caCert) := by simp only [App.ca, hcaPriv, hcaCert]
  obtain ⟨cert, hcert, hcn, hfrom, huntil, hsigned, hpem⟩ := hissues caPriv caCert hkeys
  have hnamed : mint.displayName ≠ "" := by
    rintro h
    simpa [h] using mint.displayName_length.1
  have hissue : issueClientCert app.host caPriv caCert (app.host.ed25519Public keys.edPriv)
      body.orgId (.str mint.displayName) env.enroll.serial env.enroll.issuedAt = .ok cert := by
    rw [hbody.orgId, issueClientCert_eq caPriv caCert _ _ _ _ hnamed, hcert]
  -- the checks and the store
  obtain ⟨tok, hchecked, hname⟩ := checked_of_honest hsound hcoord hanswer hbody
  have hred : Redeemed body.orgId env.consumedAt (some draws.jti) u.world.store
      (u.world.store.consumeTokenRow draws.jti env.consumedAt) :=
    ⟨Store.consumeEnrollToken_of hrow (hrowOrg.trans hbody.orgId.symm) (hmoment.unused row hrow)
      (by rw [hexp, ← hanswer.expiresAt]; exact hmoment.live)⟩
  have hfree : (u.world.store.consumeTokenRow draws.jti env.consumedAt).enrollConflict body.orgId =
      none := by
    rw [hbody.orgId]
    exact Store.enrollConflict_eq_none.mpr fun org h => hmoment.free org h
  -- the package
  obtain ⟨sealed, hsealed, hopens⟩ := opens_enrollmentPackage hsound keys hmoment.ephemeral
    coordPriv caCert cert body.orgId env.enroll.apiKey
  obtain ⟨hr, hcrl, e, hinst, hstore⟩ := enrollWithToken_of_checked hcoord hkeys hchecked
    hbody.publicKey ⟨_, hbody.recipient⟩ hred hname hissue hfree
    (by rw [hbody.x25519PubPem]; exact hsealed)
  have hrecognized := recognized_of_enrolled (t := next app (.redeemToken body env) u) hmoment
    hbody.orgId hred hinst hstore hcrl
  refine ⟨sealed, _, _, _, by rw [hr, hbody.orgId], hopens, hanswer.caSha256.symm,
    fun later hleaves => ?_⟩
  have hlater := hrecognized.run hsound hleaves
  have hx : mint.orgId ≠ "" := by
    rintro h
    simpa [h] using mint.isOrgId.1
  refine ⟨fun hmtls => hlater.keyIdentifies hmtls hmoment.apiKey, ?_⟩
  refine hlater.certIdentifies hcaCert hpem hsigned hcn hx (hsound.certSerial _ _ _ _ hcert)
    (hfrom.trans ?_) ?_
  · simp only [certRequest]
    linarith
  · simp only [certRequest] at huntil
    linarith

/-! ### On the transparent installation -/

lemma latin1_encodeChars {cs : List Char} (hcs : Json.Ascii cs) :
    Sample.latin1 (encodeChars cs) = String.ofList cs := by
  rw [Sample.latin1, Json.encodeChars_ascii hcs, List.map_map]
  congr 1
  refine (List.map_congr_left fun c hc => ?_).trans (List.map_id cs)
  have hrange := hcs c hc
  have hnat : (UInt8.ofNat c.toNat).toNat = c.toNat := by
    rw [UInt8.toNat_ofNat']
    omega
  rw [Function.comp_apply, hnat]
  exact Char.ofNat_toNat c

lemma hostSound_sample : HostSound Sample.host where
  verify_sign := Sample.verify_tag
  sign_length priv message h := by
    change 8 ≤ (Sample.tag priv message).length
    rw [Sample.tag, List.length_append, h]
    simp
  urlsafe cs hcs := by
    change Except.ok (encode (Sample.latin1 (encodeChars cs))) = _
    rw [latin1_encodeChars hcs, encode_eq, String.toList_ofList]
  urlsafe_ascii cs hcs := by
    change (encode (Sample.latin1 (encodeChars cs))).all (· < 128)
    rw [latin1_encodeChars hcs, encode_eq, String.toList_ofList, Json.encodeChars_ascii hcs]
    apply List.all_eq_true.mpr
    intro b hb
    obtain ⟨c, hc, rfl⟩ := List.mem_map.mp hb
    have hrange := hcs c hc
    rw [decide_eq_true_eq, UInt8.lt_iff_toNat_lt, UInt8.toNat_ofNat']
    change c.toNat % 256 < 128
    omega
  urlsafe_length cs hcs := by
    change cs.length ≤ (Sample.latin1 (encodeChars cs)).length
    rw [latin1_encodeChars hcs, String.length_ofList]
  b64 b := by
    simp only [Sample.host, fromHex_toHex]
  x25519_length _ h := h
  exchange a b _ _ := by
    refine ⟨Sample.xorBytes a b, rfl, ?_⟩
    change Except.ok (Sample.xorBytes b a) = _
    rw [Sample.xorBytes, Sample.xorBytes, List.zipWith_comm]
    simp only [UInt8.xor_comm]
  decrypt_encrypt shared salt info plaintext aad := by
    have htake : ∀ key : Bytes, (plaintext ++ Sample.tag key (aad ++ plaintext)).take
        ((plaintext ++ Sample.tag key (aad ++ plaintext)).length - (key.length + 2)) =
          plaintext := by
      intro key
      apply List.take_left'
      simp [Sample.tag]
    simp only [Sample.host, htake, if_true]
  certSerial _ _ _ _ h := by
    cases h
    rfl

/-- Key pairs of 32 bytes. -/
def sampleKeys : OrgKeys Sample.host where
  edPriv := List.replicate 32 2
  xPriv := List.replicate 32 3
  edPem := Sample.ed25519Pem (List.replicate 32 2)
  xPem := Sample.x25519Pem (List.replicate 32 3)
  edPem_loads := by decide +kernel
  xPem_loads := by decide +kernel
  priv_lengths := by decide
  pem_lengths := by decide +kernel

/-- The installation where API keys are accepted. -/
def keyApp : App := { Sample.app with requireMtls := false }

def sampleDraws : MintEnv := { jti := "a", now := 0, insertedAt := 0, loggedAt := Sample.zero }

def sampleMinted : MintResponse where
  token := Sample.token "x" "a"
  orgId := "x"
  caSha256 := Sample.host.sha256hex (encode (Sample.host.certificatePem Sample.caCert))
  expiresAt := 3600

def sampleRedeem : RedeemEnv :=
  { consumedAt := 200, enroll := Sample.enrollEnv 12, ephPriv := List.replicate 32 5 }

theorem self_enrollment_complete_sample :
    (∃ body, Honest sampleKeys sampleMinted.token "x" body) ∧
      ∀ body, Honest sampleKeys sampleMinted.token "x" body → ∃ sealed caPem apiKey certPem,
        Onboarded keyApp sampleKeys sampleMinted "x" body sampleRedeem
          (next keyApp (Sample.mint "x" "a") (init keyApp)) sealed caPem apiKey certPem := by
  have hmint : ((mintEnrollToken keyApp (some Sample.admin) (Sample.tokenBody "x") sampleDraws
      (init keyApp).world).1.toOption) = some sampleMinted := by decide +kernel
  refine @self_enrollment_complete keyApp hostSound_sample (fun _ => rfl) _ _ _ _ _
    (eq_ok_of_toOption hmint) [] sampleKeys sampleRedeem ?_ ?_
  · have hempty : (next keyApp (Sample.mint "x" "a") (init keyApp)).world.store.orgs.rows = [] := by
      decide +kernel
    have hunused : ((next keyApp (Sample.mint "x" "a") (init keyApp)).world.store.tokens.get?
        "a").map (·.consumed) = some false := by decide +kernel
    have habsent : ∀ y, (next keyApp (Sample.mint "x" "a") (init keyApp)).world.store.getOrg y =
        none := by
      intro y
      rw [Store.getOrg, Table.get?_eq_none_iff, hempty]
      simp
    obtain ⟨stored, hstored, hflag⟩ := Option.map_eq_some_iff.mp hunused
    refine ⟨by norm_num [sampleRedeem, sampleMinted], fun row hrow => ?_, fun org horg => ?_,
      by decide, fun y org _ horg => ?_, fun hlisted => ?_, by decide⟩
    · exact Option.some.inj (hstored.symm.trans hrow) ▸ hflag
    · exact absurd (horg.symm.trans (habsent _)) nofun
    · exact absurd (horg.symm.trans (habsent _)) nofun
    · exact absurd (mem_of_listed (l := []) (by decide +kernel) hlisted) List.not_mem_nil
  · intro caPriv caCert hca
    obtain ⟨rfl, rfl⟩ := Prod.mk.inj (Option.some.inj hca)
    have hsigned : (keyApp.host.signCertificate (.ed25519 Sample.caKey)
        (caSignAlgorithm (.ed25519 Sample.caKey)) (certRequest Sample.caCert
          (keyApp.host.ed25519Public sampleKeys.edPriv) (Sample.tokenBody "x").orgId
          (Sample.tokenBody "x").displayName sampleRedeem.enroll.serial
          sampleRedeem.enroll.issuedAt)).toOption =
        some (Sample.certOf "x" (List.replicate 32 2) 12) := by decide +kernel
    have hread : (keyApp.host.loadPemCertificate (encode (keyApp.host.certificatePem
        (Sample.certOf "x" (List.replicate 32 2) 12)))).toOption =
          some (Sample.certOf "x" (List.replicate 32 2) 12) := by decide +kernel
    refine ⟨Sample.certOf "x" (List.replicate 32 2) 12, eq_ok_of_toOption hsigned, rfl, ?_, ?_,
      by decide +kernel, eq_ok_of_toOption hread⟩
    · norm_num [certRequest, Sample.certOf, sampleRedeem, Sample.enrollEnv]
    · norm_num [certRequest, Sample.certOf, sampleRedeem, Sample.enrollEnv]

end Completeness

end FlCoordinator
