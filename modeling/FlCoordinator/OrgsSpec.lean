import FlCoordinator.Orgs
import FlCoordinator.StoreSpec

/-!
# What the org handlers do

One lemma per handler: either the request failed and the world is as before (or only a token
was consumed), or the exact state change it made.
-/

namespace FlCoordinator

open Lib Handler

section Specs

variable {app : App} {w : World}

/-! ### The revocation list -/

/-- Where the CRL is stored. -/
def crlPath (app : App) : String := app.caDir ++ "/crl.pem"

/-- The CRL after a rebuild: the revoked serials of the store, if it could be written. -/
structure CrlRebuilt (app : App) (env : CrlEnv) (s : Store) (w t : World) : Prop where
  store : t.store = w.store
  rebuilt : app.ca.isSome → env.writable = true →
    ∃ crl, t.crl = some crl ∧ crl.revoked = s.listRevokedSerials
  kept : ¬(app.ca.isSome ∧ env.writable = true) → t.crl = w.crl
  files : t.files = w.files ∨
    ∃ content, t.files = Function.update w.files (crlPath app) (some content)

lemma regenerateCrl_spec (env : CrlEnv) :
    (regenerateCrl app env).wp
      (fun r t => (∃ b, r = .ok b) ∧ CrlRebuilt app env w.store w t) w := by
  unfold regenerateCrl
  cases hca : app.ca with
  | none =>
    refine ⟨⟨_, rfl⟩, rfl, fun h => ?_, fun _ => rfl, Or.inl rfl⟩
    rw [hca] at h
    cases h
  | some ca =>
    apply wp_query_bind
    by_cases hw : env.writable = true
    · simp only [if_pos hw]
      exact ⟨⟨_, rfl⟩, rfl, fun _ _ => ⟨_, rfl, rfl⟩,
        fun h => absurd ⟨by rw [hca]; rfl, hw⟩ h, Or.inr ⟨_, rfl⟩⟩
    · simp only [if_neg hw]
      exact ⟨⟨_, rfl⟩, rfl, fun _ h => absurd h hw, fun _ => rfl, Or.inl rfl⟩

/-! ### Status changes -/

/-- A permitted status change of a known org. -/
structure StatusSet (permission : String) (status : OrgStatus) (user : Option FLUser)
    (orgId : String) (w t : World) : Prop where
  permitted : Permitted user permission
  known : (w.store.getOrg orgId).isSome
  store : t.store = w.store.setOrgStatus orgId status

lemma changeStatus_spec {permission action orgId : String} {status : OrgStatus} {hook : Api Unit}
    {user : Option FLUser} {loggedAt : Decimal} {C : World → World → Prop}
    (hhook : ∀ v : World, hook.wp (fun r t => r = .ok () ∧ t.store = v.store ∧ C v t) v)
    (hlog : ∀ v t a b c d, C v t → C v (t.logAudit app loggedAt a b c d)) :
    (changeStatus app permission status action hook user orgId loggedAt).wp
      (fun r t => ((∃ e, r = .error e) ∧ t = w ∧
          ¬(Permitted user permission ∧ (w.store.getOrg orgId).isSome)) ∨
        r = .ok { orgId, status } ∧ StatusSet permission status user orgId w t ∧
          C (w.setStore (w.store.setOrgStatus orgId status)) t) w := by
  unfold changeStatus
  refine wp_flRequire_bind (fun hno e => Or.inl ⟨⟨e, rfl⟩, rfl, fun h => hno h.1⟩)
    fun u hu hperm => ?_
  apply wp_query_bind
  apply wp_ensure_bind (fun hno => Or.inl ⟨⟨_, rfl⟩, rfl, fun h => hno h.2⟩)
  intro hknown
  apply wp_execute_bind
  refine wp_call_bind (hhook _) (fun e t h => ?_) fun a t h => ?_
  · cases h.1
  · apply wp_log_bind
    exact Or.inr ⟨rfl, ⟨⟨u, hu, hperm⟩, hknown, h.2.1⟩, hlog _ _ _ _ _ _ h.2.2⟩

lemma blockOrg_spec (app : App) (w : World) (user : Option FLUser) (orgId : String)
    (loggedAt : Decimal) :
    (blockOrg app user orgId loggedAt).wp
      (fun r t => ((∃ e, r = .error e) ∧ t = w ∧
          ¬(Permitted user "fl_block_org" ∧ (w.store.getOrg orgId).isSome)) ∨
        r = .ok ⟨orgId, .blocked⟩ ∧ StatusSet "fl_block_org" .blocked user orgId w t ∧
          t.crl = w.crl ∧ t.files = w.files) w :=
  changeStatus_spec (C := fun v t => t.crl = v.crl ∧ t.files = v.files)
    (fun _ => ⟨rfl, rfl, rfl, rfl⟩) (fun _ _ _ _ _ _ h => h)

lemma unblockOrg_spec (app : App) (w : World) (user : Option FLUser) (orgId : String)
    (loggedAt : Decimal) :
    (unblockOrg app user orgId loggedAt).wp
      (fun r t => ((∃ e, r = .error e) ∧ t = w ∧
          ¬(Permitted user "fl_unblock_org" ∧ (w.store.getOrg orgId).isSome)) ∨
        r = .ok ⟨orgId, .active⟩ ∧ StatusSet "fl_unblock_org" .active user orgId w t ∧
          t.crl = w.crl ∧ t.files = w.files) w :=
  changeStatus_spec (C := fun v t => t.crl = v.crl ∧ t.files = v.files)
    (fun _ => ⟨rfl, rfl, rfl, rfl⟩) (fun _ _ _ _ _ _ h => h)

lemma revokeOrg_spec (app : App) (w : World) (crlEnv : CrlEnv) (user : Option FLUser)
    (orgId : String) (loggedAt : Decimal) :
    (revokeOrg app crlEnv user orgId loggedAt).wp
      (fun r t => ((∃ e, r = .error e) ∧ t = w ∧
          ¬(Permitted user "fl_revoke_org" ∧ (w.store.getOrg orgId).isSome)) ∨
        r = .ok ⟨orgId, .revoked⟩ ∧ StatusSet "fl_revoke_org" .revoked user orgId w t ∧
          CrlRebuilt app crlEnv (w.store.setOrgStatus orgId .revoked)
            (w.setStore (w.store.setOrgStatus orgId .revoked)) t) w := by
  refine changeStatus_spec (C := fun v t => CrlRebuilt app crlEnv v.store v t) (fun v => ?_) ?_
  · refine wp_call_bind (regenerateCrl_spec crlEnv) (fun e t h => ?_) fun a t h => ?_
    · obtain ⟨b, hb⟩ := h.1
      cases hb
    · exact ⟨rfl, h.2.store, h.2⟩
  · exact fun v t a b c d h => ⟨h.store, h.rebuilt, h.kept, h.files⟩

/-! ### Enrollment -/

/-- The enrollment that a request with these fields installs. -/
structure Installs (app : App) (orgId publicKeyPem : String) (env : EnrollEnv)
    (e : Store.Enrollment) : Prop where
  org : e.orgId = orgId
  publicKeyPem : e.publicKeyPem = some publicKeyPem
  apiKeyHash : e.apiKeyHash = app.host.sha256hex (encode env.apiKey)
  cert : ∃ ca pub name cert,
    issueClientCert app.host ca.1 ca.2 pub orgId name env.serial env.issuedAt = .ok cert ∧
      app.ca = some ca ∧ e.certSerial = some cert.serialNumber ∧
      e.certPem = some (app.host.certificatePem cert)

/-- The enrollment found no org or a revoked one, and replaced its row. -/
structure Enrolled (app : App) (orgId publicKeyPem : String) (env : EnrollEnv)
    (s s' : Store) : Prop where
  free : s.enrollConflict orgId = none
  row : ∃ e, Installs app orgId publicKeyPem env e ∧ s' = s.insertOrg e env.enrolledAt

lemma enrollOrg_spec (app : App) (w : World) (user : Option FLUser) (body : EnrollOrgRequest)
    (env : EnrollEnv) :
    (enrollOrg app user body env).wp
      (fun r t => ((∃ e, r = .error e) ∧ t = w) ∨
        Permitted user "fl_enroll_org" ∧
          Enrolled app body.orgId body.publicKeyPem env w.store t.store ∧ t.crl = w.crl ∧
          t.files = w.files) w := by
  unfold enrollOrg
  apply wp_flRequire_bind (fun _ e => Or.inl ⟨⟨e, rfl⟩, rfl⟩)
  intro u hu hperm
  apply wp_attempt_bind (fun e _ => Or.inl ⟨⟨_, rfl⟩, rfl⟩)
  intro pub _
  apply wp_orRaise_bind (fun _ => Or.inl ⟨⟨_, rfl⟩, rfl⟩)
  intro ca hca
  apply wp_attempt_bind (fun e _ => Or.inl ⟨⟨_, rfl⟩, rfl⟩)
  intro cert hcert
  apply wp_tryExecute_bind (fun e _ => Or.inl ⟨⟨_, rfl⟩, rfl⟩)
  intro s hs
  apply wp_log_bind
  have henrolled : Enrolled app body.orgId body.publicKeyPem env w.store s := by
    unfold Store.enrollOrg at hs
    split at hs
    · cases hs
    · rename_i hfree
      cases hs
      exact ⟨hfree, _, ⟨rfl, rfl, rfl, ca, pub, _, cert, hcert, hca, rfl, rfl⟩, rfl⟩
  exact wp_orRaise_bind (fun _ => Or.inr ⟨⟨u, hu, hperm⟩, henrolled, rfl, rfl⟩)
    fun _ _ => Or.inr ⟨⟨u, hu, hperm⟩, henrolled, rfl, rfl⟩

/-! ### Enrollment tokens -/

/-- A minted token: a new row that the caller's token string names. -/
structure Minted (body : EnrollTokenRequest) (env : MintEnv) (s s' : Store) : Prop where
  free : ∀ org ∈ s.getOrg body.orgId, org.status = .revoked
  created : s.createEnrollToken env.jti body.orgId body.displayName
    (env.now + body.ttlMinutes * 60) env.insertedAt = .ok s'

lemma mintEnrollToken_spec (app : App) (w : World) (user : Option FLUser)
    (body : EnrollTokenRequest) (env : MintEnv) :
    (mintEnrollToken app user body env).wp
      (fun r t => ((∃ e, r = .error e) ∧ t = w) ∨
        (∃ resp, r = .ok resp) ∧ Minted body env w.store t.store ∧ t.crl = w.crl ∧
          t.files = w.files) w := by
  unfold mintEnrollToken
  apply wp_flRequire_bind (fun _ e => Or.inl ⟨⟨e, rfl⟩, rfl⟩)
  intro u hu hperm
  apply wp_query_bind
  apply wp_ensure_bind (fun _ => Or.inl ⟨⟨_, rfl⟩, rfl⟩)
  intro hfree
  apply wp_orRaise_bind (fun _ => Or.inl ⟨⟨_, rfl⟩, rfl⟩)
  intro keys _
  apply wp_tryExecute_bind (fun e _ => Or.inl ⟨⟨_, rfl⟩, rfl⟩)
  intro s hs
  apply wp_log_bind
  exact Or.inr ⟨⟨_, rfl⟩, ⟨hfree, hs⟩, rfl, rfl⟩

/-- A redeemed token: the row that the store consumed. -/
structure Redeemed (orgId : String) (now : ℚ) (jti : Option String) (s s' : Store) : Prop where
  consumed : s.consumeEnrollToken jti orgId now = (none, s')

/-- What is established about a token with the payload `tok` before it is consumed: the
coordinator's signature, its type and org, the caller's proof of possession and its id. -/
structure TokenChecked (app : App) (body : EnrollWithTokenRequest) (tok : Json)
    (jti : Option String) : Prop where
  signed : ∃ coordPriv att sig, app.coordPriv = some coordPriv ∧
    unpackToken app.host body.token = some (att, sig) ∧
    verify app.host (app.host.ed25519Public coordPriv) att sig = true ∧ Json.loads att = .ok tok
  type : ∃ v, tok.get "type" .null = .ok v ∧ v.isStr "fl.enroll_token.v1" = true
  org : ∃ v, tok.get "org_id" .null = .ok v ∧ v.isStr body.orgId = true
  pop : ∃ pub att sig, publicKeyFromPem app.host (encode body.ed25519PubPem) = .ok pub ∧
    buildEnrollPop app.host body.token body.x25519PubPem = .ok att ∧
    fromHex body.popSignature = some sig ∧ verify app.host pub att sig = true
  named : ∃ v, tok.item "jti" = .ok v ∧ app.host.bindText v = .ok jti

/-- What the checks of a redemption pass on. -/
structure PresentedToken where
  coordPriv : Bytes
  caPriv : CaKey
  caCert : Certificate
  payload : Json
  edPub : Bytes
  jti : Json
  jtiText : Option String

/-- `enroll_with_token` up to the point where it consumes the token. -/
def checkToken (app : App) (body : EnrollWithTokenRequest) : Api PresentedToken := do
  let keys ← orRaise (app.coordPriv.bind fun k => app.ca.map fun ca => (k, ca))
    (.http 503 "Coordinator keys / CA not loaded")
  let parts ← orRaise (unpackToken app.host body.token) (.http 400 "Malformed enrollment token")
  ensure (verify app.host (app.host.ed25519Public keys.1) parts.1 parts.2)
    (.http 403 "Enrollment token signature invalid")
  let tok ← attempt (Json.loads parts.1) fun _ => .http 400 "Malformed token payload"
  let type ← attempt (tok.get "type" .null) .uncaught
  let tokOrgId ← attempt (tok.get "org_id" .null) .uncaught
  ensure (type.isStr "fl.enroll_token.v1" ∧ tokOrgId.isStr body.orgId)
    (.http 400 "Token type/org_id mismatch")
  let edPub ← attempt (publicKeyFromPem app.host (encode body.ed25519PubPem)) fun e =>
    .http 400 s!"Invalid ed25519_pub_pem: {e.text}"
  let _ ← attempt (x25519PublicFromPem app.host (encode body.x25519PubPem)) fun e =>
    .http 400 s!"Invalid x25519_pub_pem: {e.text}"
  let popAtt ← attempt (buildEnrollPop app.host body.token body.x25519PubPem) .uncaught
  let popSig ← orRaise (fromHex body.popSignature) (.http 400 "pop_signature must be hex")
  ensure (verify app.host edPub popAtt popSig)
    (.http 403 "Proof-of-possession signature invalid")
  let jti ← attempt (tok.item "jti") .uncaught
  let jtiText ← attempt (app.host.bindText jti) .uncaught
  pure ⟨keys.1, keys.2.1, keys.2.2, tok, edPub, jti, jtiText⟩

/-- The rest of `enroll_with_token`. -/
def redeemChecked (app : App) (body : EnrollWithTokenRequest) (env : RedeemEnv)
    (p : PresentedToken) : Api RedeemResponse := do
  let err ← Api.insert (fun s => s.consumeEnrollToken p.jtiText body.orgId env.consumedAt)
  ensure (err = none) (.http 403 ("Enrollment token rejected: " ++ err.getD ""))
  let displayName ← attempt (p.payload.item "display_name") .uncaught
  let cert ← attempt (issueClientCert app.host p.caPriv p.caCert p.edPub body.orgId displayName
    env.enroll.serial env.enroll.issuedAt) .uncaught
  let conflict ← Api.query (·.enrollConflict body.orgId)
  ensure (conflict = none) (.http 409 ((conflict.map (·.text)).getD ""))
  let nameText ← attempt (app.host.bindText displayName) .uncaught
  let name ← orRaise nameText (.uncaught .integrityError)
  Api.execute (fun s => s.insertOrg
    { orgId := body.orgId
      displayName := name
      apiKeyHash := app.host.sha256hex (encode env.enroll.apiKey)
      enrolledBy := s!"self:token:{app.host.strOf p.jti}"
      publicKeyPem := some body.ed25519PubPem
      certPem := some (app.host.certificatePem cert)
      certSerial := some cert.serialNumber
      notes := none } env.enroll.enrolledAt)
  let sealed ← attempt (sealPackage app.host body.x25519PubPem
    (Json.dumpsBytes
      (enrollmentPackage app p.coordPriv p.caCert cert body.orgId env.enroll.apiKey))
    env.ephPriv) .uncaught
  Api.log app env.enroll.loggedAt "fl.org.self_enrolled" s!"org:{body.orgId}" body.orgId (.obj [
    ("jti", p.jti),
    ("cert_serial", .str (intStr cert.serialNumber))])
  pure { orgId := body.orgId, sealedPackageB64 := sealed }

lemma enrollWithToken_parts (app : App) (body : EnrollWithTokenRequest) (env : RedeemEnv) :
    enrollWithToken app body env = checkToken app body >>= redeemChecked app body env := by
  unfold enrollWithToken checkToken redeemChecked
  simp only [bind_assoc, pure_bind]

/-- The request presents a token that passes the checks, with these data. -/
structure Presents (app : App) (body : EnrollWithTokenRequest) (p : PresentedToken) : Prop where
  coordPriv : app.coordPriv = some p.coordPriv
  ca : app.ca = some (p.caPriv, p.caCert)
  checked : TokenChecked app body p.payload p.jtiText
  publicKey : publicKeyFromPem app.host (encode body.ed25519PubPem) = .ok p.edPub
  recipient : ∃ recip, x25519PublicFromPem app.host (encode body.x25519PubPem) = .ok recip
  jti : p.payload.item "jti" = .ok p.jti

lemma checkToken_spec (app : App) (body : EnrollWithTokenRequest) (w : World) :
    (checkToken app body).wp (fun r t => t = w ∧ ∀ p, r = .ok p → Presents app body p) w := by
  have hfail : ∀ e : Failure, w = w ∧ ∀ p, (Except.error e : Except Failure PresentedToken) = .ok p →
      Presents app body p := by
    intro e
    exact ⟨rfl, fun p h => by cases h⟩
  unfold checkToken
  apply wp_orRaise_bind (fun _ => hfail _)
  intro keys hkeys
  obtain ⟨coordPriv, caPriv, caCert⟩ := keys
  obtain ⟨hcoord, hca⟩ : app.coordPriv = some coordPriv ∧ app.ca = some (caPriv, caCert) := by
    obtain ⟨k, hk, hkeys⟩ := Option.bind_eq_some_iff.mp hkeys
    obtain ⟨ca, hca, heq⟩ := Option.map_eq_some_iff.mp hkeys
    cases heq
    exact ⟨hk, hca⟩
  apply wp_orRaise_bind (fun _ => hfail _)
  intro parts hparts
  apply wp_ensure_bind (fun _ => hfail _)
  intro hsigned
  apply wp_attempt_bind (fun _ _ => hfail _)
  intro tok htok
  apply wp_attempt_bind (fun _ _ => hfail _)
  intro type htype
  apply wp_attempt_bind (fun _ _ => hfail _)
  intro tokOrgId htokOrg
  apply wp_ensure_bind (fun _ => hfail _)
  intro hmatch
  apply wp_attempt_bind (fun _ _ => hfail _)
  intro edPub hedPub
  apply wp_attempt_bind (fun _ _ => hfail _)
  intro recip hrecip
  apply wp_attempt_bind (fun _ _ => hfail _)
  intro popAtt hpopAtt
  apply wp_orRaise_bind (fun _ => hfail _)
  intro popSig hpopSig
  apply wp_ensure_bind (fun _ => hfail _)
  intro hpop
  apply wp_attempt_bind (fun _ _ => hfail _)
  intro jti hjti
  apply wp_attempt_bind (fun _ _ => hfail _)
  intro jtiText hjtiText
  constructor
  · rfl
  · intro p hp
    have hp : (Except.ok _ : Except Failure PresentedToken) = .ok p := hp
    cases hp
    exact
      { coordPriv := hcoord
        ca := hca
        checked := ⟨⟨coordPriv, parts.1, parts.2, hcoord, hparts, hsigned, htok⟩,
          ⟨type, htype, hmatch.1⟩, ⟨tokOrgId, htokOrg, hmatch.2⟩,
          ⟨edPub, popAtt, popSig, hedPub, hpopAtt, hpopSig, hpop⟩, ⟨jti, hjti, hjtiText⟩⟩
        publicKey := hedPub
        recipient := ⟨recip, hrecip⟩
        jti := hjti }

lemma wp_enrollWithToken {app : App} {body : EnrollWithTokenRequest} {env : RedeemEnv} {w : World}
    {Q : Except Failure RedeemResponse → World → Prop} (hno : ∀ e, Q (.error e) w)
    (hyes : ∀ p, Presents app body p → (redeemChecked app body env p).wp Q w) :
    (enrollWithToken app body env).wp Q w := by
  rw [enrollWithToken_parts]
  apply wp_call_bind (checkToken_spec app body w)
  · rintro e t ⟨rfl, -⟩
    exact hno e
  · rintro p t ⟨rfl, hp⟩
    exact hyes p (hp p rfl)

lemma wp_enrollWithToken_of {app : App} {body : EnrollWithTokenRequest} {env : RedeemEnv}
    {w : World} {Q : Except Failure RedeemResponse → World → Prop} {p : PresentedToken}
    (hp : Presents app body p) (h : (redeemChecked app body env p).wp Q w) :
    (enrollWithToken app body env).wp Q w := by
  obtain ⟨coordPriv, att, sig, hcoord, hparts, hsigned, htok⟩ := hp.checked.signed
  obtain rfl := Option.some.inj (hp.coordPriv.symm.trans hcoord)
  obtain ⟨type, htype, htypeStr⟩ := hp.checked.type
  obtain ⟨tokOrgId, htokOrg, horgStr⟩ := hp.checked.org
  obtain ⟨edPub, popAtt, popSig, hedPub, hpopAtt, hpopSig, hpop⟩ := hp.checked.pop
  obtain rfl := Except.ok.inj (hp.publicKey.symm.trans hedPub)
  obtain ⟨jti, hjti, hjtiText⟩ := hp.checked.named
  obtain rfl := Except.ok.inj (hp.jti.symm.trans hjti)
  obtain ⟨recip, hrecip⟩ := hp.recipient
  have hkeys : (app.coordPriv.bind fun k => app.ca.map fun ca => (k, ca)) =
      some (p.coordPriv, p.caPriv, p.caCert) := by
    rw [hp.coordPriv, hp.ca]
    rfl
  rw [enrollWithToken_parts]
  unfold checkToken
  simp only [bind_assoc, pure_bind]
  apply wp_orRaise_bind_of hkeys
  apply wp_orRaise_bind_of hparts
  apply wp_ensure_bind_of hsigned
  apply wp_attempt_bind_of htok
  apply wp_attempt_bind_of htype
  apply wp_attempt_bind_of htokOrg
  apply wp_ensure_bind_of ⟨htypeStr, horgStr⟩
  apply wp_attempt_bind_of hedPub
  apply wp_attempt_bind_of hrecip
  apply wp_attempt_bind_of hpopAtt
  apply wp_orRaise_bind_of hpopSig
  apply wp_ensure_bind_of hpop
  apply wp_attempt_bind_of hjti
  apply wp_attempt_bind_of hjtiText
  exact h

/-- The org that a token enrolls: it bears the token's name, and the answer, if there is one, is
sealed to the key of the proof. -/
structure SelfEnrolled (app : App) (body : EnrollWithTokenRequest) (env : RedeemEnv) (tok : Json)
    (s : Store) (r : Except Failure RedeemResponse) (s' : Store) : Prop where
  free : s.enrollConflict body.orgId = none
  row : ∃ e v, Installs app body.orgId body.ed25519PubPem env.enroll e ∧
    tok.item "display_name" = .ok v ∧ app.host.bindText v = .ok (some e.displayName) ∧
    s' = s.insertOrg e env.enroll.enrolledAt
  sealed : ∀ resp, r = .ok resp → ∃ package,
    sealPackage app.host body.x25519PubPem package env.ephPriv = .ok resp.sealedPackageB64

lemma SelfEnrolled.enrolled {body : EnrollWithTokenRequest} {env : RedeemEnv} {tok : Json}
    {s s' : Store} {r : Except Failure RedeemResponse}
    (h : SelfEnrolled app body env tok s r s') :
    Enrolled app body.orgId body.ed25519PubPem env.enroll s s' := by
  obtain ⟨e, -, he, -, -, hstore⟩ := h.row
  exact ⟨h.free, e, he, hstore⟩

/-- Redeeming fails without a trace, only consumes a token, or also enrolls the org. -/
lemma enrollWithToken_spec (app : App) (w : World) (body : EnrollWithTokenRequest)
    (env : RedeemEnv) :
    (enrollWithToken app body env).wp
      (fun r t => t.crl = w.crl ∧ t.files = w.files ∧
        (((∃ e, r = .error e) ∧ t = w) ∨
          ∃ tok jti s, TokenChecked app body tok jti ∧
            Redeemed body.orgId env.consumedAt jti w.store s ∧
            (((∃ e, r = .error e) ∧ t.store = s) ∨
              SelfEnrolled app body env tok s r t.store))) w := by
  have hrefuse : ∀ e : Failure, w.crl = w.crl ∧ w.files = w.files ∧
      (((∃ d, (Except.error e : Except Failure RedeemResponse) = .error d) ∧ w = w) ∨
        ∃ tok jti s, TokenChecked app body tok jti ∧
          Redeemed body.orgId env.consumedAt jti w.store s ∧
          (((∃ d, (Except.error e : Except Failure RedeemResponse) = .error d) ∧ w.store = s) ∨
            SelfEnrolled app body env tok s (.error e) w.store)) :=
    fun e => ⟨rfl, rfl, Or.inl ⟨⟨e, rfl⟩, rfl⟩⟩
  apply wp_enrollWithToken hrefuse
  intro p hp
  unfold redeemChecked
  apply wp_insert_bind
  -- from here on the token may be consumed
  cases hcons : w.store.consumeEnrollToken p.jtiText body.orgId env.consumedAt with
  | mk err s =>
    apply wp_ensure_bind
    · intro herr
      refine ⟨rfl, rfl, Or.inl ⟨⟨_, rfl⟩, ?_⟩⟩
      change w.setStore s = w
      rw [Store.consumeEnrollToken_refused hcons herr]
      rfl
    · intro herr
      change err = none at herr
      subst herr
      have hred : Redeemed body.orgId env.consumedAt p.jtiText w.store s := ⟨hcons⟩
      have hfail : ∀ e : Failure, (w.setStore s).crl = w.crl ∧ (w.setStore s).files = w.files ∧
          (((∃ d, (Except.error e : Except Failure RedeemResponse) = .error d) ∧
            w.setStore s = w) ∨
          ∃ tok jti s', TokenChecked app body tok jti ∧
            Redeemed body.orgId env.consumedAt jti w.store s' ∧
            (((∃ d, (Except.error e : Except Failure RedeemResponse) = .error d) ∧
              (w.setStore s).store = s') ∨
            SelfEnrolled app body env tok s' (.error e) (w.setStore s).store)) :=
        fun e => ⟨rfl, rfl, Or.inr ⟨p.payload, _, s, hp.checked, hred, Or.inl ⟨⟨e, rfl⟩, rfl⟩⟩⟩
      apply wp_attempt_bind (fun _ _ => hfail _)
      intro name hname
      apply wp_attempt_bind (fun _ _ => hfail _)
      intro cert hcert
      apply wp_query_bind
      apply wp_ensure_bind (fun _ => hfail _)
      intro hfree
      apply wp_attempt_bind (fun _ _ => hfail _)
      intro nameText hnameText
      apply wp_orRaise_bind (fun _ => hfail _)
      intro nameStr hnameStr
      subst hnameStr
      apply wp_execute_bind
      have hinstalls : ∀ e : Store.Enrollment, e.orgId = body.orgId →
          e.publicKeyPem = some body.ed25519PubPem →
          e.apiKeyHash = app.host.sha256hex (encode env.enroll.apiKey) →
          e.certSerial = some cert.serialNumber →
          e.certPem = some (app.host.certificatePem cert) →
          Installs app body.orgId body.ed25519PubPem env.enroll e :=
        fun e horg hpem hkey hserial hcertPem => ⟨horg, hpem, hkey,
          (p.caPriv, p.caCert), p.edPub, name, cert, hcert, hp.ca, hserial, hcertPem⟩
      refine wp_attempt_bind (fun _ _ => ?_) fun sealedText hsealed => ?_
      · exact ⟨rfl, rfl, Or.inr ⟨p.payload, _, s, hp.checked, hred, Or.inr ⟨hfree,
          ⟨_, name, hinstalls _ rfl rfl rfl rfl rfl, hname, hnameText, rfl⟩,
          fun _ h => by cases h⟩⟩⟩
      · apply wp_log_bind
        refine ⟨rfl, rfl, Or.inr ⟨p.payload, _, s, hp.checked, hred, Or.inr ⟨hfree,
          ⟨_, name, hinstalls _ rfl rfl rfl rfl rfl, hname, hnameText, rfl⟩, fun resp h => ?_⟩⟩⟩
        cases h
        exact ⟨_, hsealed⟩

/-! ### Removal -/

/-- An attestation that asks for the removal of the org, and a signature on it under the key. -/
structure LeaveEvidence (app : App) (orgId : String) (publicKeyPem : Option String)
    (attestation : Bytes) (signature : String) : Prop where
  signed : ∃ pem pub sig, publicKeyPem = some pem ∧
    publicKeyFromPem app.host (encode pem) = .ok pub ∧ fromHex signature = some sig ∧
    verify app.host pub attestation sig = true
  payload : ∃ att type attOrgId, app.python.loads attestation = .ok att ∧
    att.get "type" .null = .ok type ∧ type.isStr "fl.leave_request.v1" = true ∧
    att.get "org_id" .null = .ok attOrgId ∧ attOrgId.isStr orgId = true

/-- A leave request of the caller's own org, signed under its registered key. -/
structure LeaveRequested (app : App) (orgId : String) (body : LeaveRequestBody) (now : ℚ)
    (w t : World) : Prop where
  org : ∃ row, w.store.getOrg orgId = some row ∧ row.status ≠ .revoked ∧
    LeaveEvidence app orgId row.publicKeyPem (encode body.attestation) body.signature
  store : t.store = w.store.setLeaveRequest orgId (encode body.attestation) body.signature now

lemma orgLeaveRequest_spec (app : App) (w : World) (req : Request) (orgId : String)
    (body : LeaveRequestBody) (env : LeaveEnv) :
    (orgLeaveRequest app req orgId body env).wp
      (fun r t => t.crl = w.crl ∧ t.files = w.files ∧ (((∃ e, r = .error e) ∧ t = w) ∨
        getAuthenticatedOrgId app req w env.authAt = .ok orgId ∧
          LeaveRequested app orgId body env.requestedAt w t)) w := by
  unfold orgLeaveRequest
  have hfail : ∀ e : Failure, w.crl = w.crl ∧ w.files = w.files ∧
      (((∃ d, (Except.error e : Except Failure StatusResponse) = .error d) ∧ w = w) ∨
        getAuthenticatedOrgId app req w env.authAt = .ok orgId ∧
          LeaveRequested app orgId body env.requestedAt w w) :=
    fun e => ⟨rfl, rfl, Or.inl ⟨⟨e, rfl⟩, rfl⟩⟩
  apply wp_read_bind
  apply wp_attempt_bind (fun e _ => hfail _)
  intro authOrgId hauth
  apply wp_ensure_bind (fun _ => hfail _)
  intro heq
  subst heq
  apply wp_query_bind
  apply wp_orRaise_bind (fun _ => hfail _)
  intro org horg
  apply wp_ensure_bind (fun _ => hfail _)
  intro hstatus
  apply wp_attempt_bind (fun _ _ => hfail _)
  intro att hatt
  apply wp_attempt_bind (fun _ _ => hfail _)
  intro type htype
  apply wp_attempt_bind (fun _ _ => hfail _)
  intro attOrgId hattOrg
  apply wp_ensure_bind (fun _ => hfail _)
  intro hmatch
  apply wp_orRaise_bind (fun _ => hfail _)
  intro pem hpem
  apply wp_orRaise_bind (fun _ => hfail _)
  intro sig hsig
  apply wp_attempt_bind (fun _ _ => hfail _)
  intro pub hpub
  apply wp_ensure_bind (fun _ => hfail _)
  intro hverify
  apply wp_execute_bind
  have hpem' := (Option.filter_eq_some_iff.mp hpem).1
  have hdone : LeaveRequested app authOrgId body env.requestedAt w
      (w.setStore (w.store.setLeaveRequest authOrgId (encode body.attestation) body.signature
        env.requestedAt)) :=
    ⟨⟨org, horg, hstatus, ⟨pem, pub, sig, hpem', hpub, hsig, hverify⟩,
      ⟨att, type, attOrgId, hatt, htype, hmatch.1, hattOrg, hmatch.2⟩⟩, rfl⟩
  apply wp_attempt_bind (fun _ _ => ⟨rfl, rfl, Or.inr ⟨hauth, hdone⟩⟩)
  intro reason _
  apply wp_log_bind
  exact ⟨rfl, rfl, Or.inr ⟨hauth, hdone.org, hdone.store⟩⟩

/-- The store after an approved removal. -/
def removedStore (app : App) (coordPriv : Bytes) (orgId : String) (env : ApproveEnv) (s : Store) :
    Store :=
  (s.setOrgStatus orgId .revoked).setRemovalConfirm orgId
    (buildRemovalConfirmAttestation orgId env.revokedAt)
    (toHex (sign app.host coordPriv (buildRemovalConfirmAttestation orgId env.revokedAt)))

/-- A permitted removal of an org that asked to leave. -/
structure Removed (app : App) (user : Option FLUser) (orgId : String) (env : ApproveEnv)
    (w t : World) : Prop where
  permitted : Permitted user "fl_revoke_org"
  pending : ∃ row, w.store.getOrg orgId = some row ∧ row.status = .leavePending
  store : ∃ coordPriv, app.coordPriv = some coordPriv ∧
    t.store = removedStore app coordPriv orgId env w.store
  crl : CrlRebuilt app env.crl t.store (w.setStore t.store) t

lemma approveRemoval_spec (app : App) (w : World) (user : Option FLUser) (orgId : String)
    (env : ApproveEnv) :
    (approveRemoval app user orgId env).wp
      (fun r t => ((∃ e, r = .error e) ∧ t = w) ∨
        (∃ c, r = .ok c) ∧ Removed app user orgId env w t) w := by
  unfold approveRemoval
  apply wp_flRequire_bind (fun _ e => Or.inl ⟨⟨e, rfl⟩, rfl⟩)
  intro u hu hperm
  apply wp_query_bind
  apply wp_orRaise_bind (fun _ => Or.inl ⟨⟨_, rfl⟩, rfl⟩)
  intro org horg
  apply wp_ensure_bind (fun _ => Or.inl ⟨⟨_, rfl⟩, rfl⟩)
  intro hpending
  apply wp_orRaise_bind (fun _ => Or.inl ⟨⟨_, rfl⟩, rfl⟩)
  intro coordPriv hpriv
  refine wp_execute_bind (wp_execute_bind ?_)
  refine wp_call_bind (regenerateCrl_spec env.crl) (fun e t h => ?_) fun b t h => ?_
  · obtain ⟨b, hb⟩ := h.1
    cases hb
  · apply wp_log_bind
    have hstore : t.store = removedStore app coordPriv orgId env w.store := h.2.store
    have hcrl : CrlRebuilt app env.crl t.store (w.setStore t.store) t := by
      rw [hstore]
      exact h.2
    exact Or.inr ⟨⟨_, rfl⟩, ⟨u, hu, hperm⟩, ⟨org, horg, hpending⟩, ⟨coordPriv, hpriv, hstore⟩,
      hcrl.store, hcrl.rebuilt, hcrl.kept, hcrl.files⟩

end Specs

end FlCoordinator
