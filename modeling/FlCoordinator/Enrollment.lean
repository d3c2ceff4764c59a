import FlCoordinator.Membership

/-!
# Self-enrollment

What stands behind an org that enrolled itself with a token, when nobody forges the coordinator's
signature.
-/

namespace FlCoordinator

open Lib

/-! ### What the coordinator signs -/

section Messages

variable {host : Host}

/-- The type that a receiver reads in signed bytes. -/
def readType (att : Bytes) : Option String :=
  match Json.loads att with
  | .ok v =>
    match v.get "type" .null with
    | .ok t => t.str?
    | .error _ => none
  | .error _ => none

lemma field_canonicalJson {fs : List (String × Json)} {k : String} {v tok : Json}
    (hplain : Json.Plain (.obj fs)) (hk : Json.field? k fs = some v)
    (h : Json.loads (canonicalJson (.obj fs)) = .ok tok) :
    (∀ d, tok.get k d = .ok v.sortKeys) ∧ tok.item k = .ok v.sortKeys := by
  obtain ⟨gs, hgs, hfield⟩ := Json.get_sortKeys k (Json.plain_obj.mp hplain).1
  rw [loads_canonicalJson hplain, hgs] at h
  cases h
  rw [hk] at hfield
  exact ⟨fun d => by rw [Json.get, hfield]; rfl, by rw [Json.item, hfield]; rfl⟩

lemma readType_canonicalJson {fs : List (String × Json)} {t : String}
    (hplain : Json.Plain (.obj fs)) (ht : Json.field? "type" fs = some (.str t)) :
    readType (canonicalJson (.obj fs)) = some t := by
  have hloads := loads_canonicalJson hplain
  have hget := (field_canonicalJson hplain ht hloads).1 .null
  rw [readType, hloads]
  simp only [hget]
  rfl

/-- The messages that the coordinator signs beside tokens. -/
inductive OtherMessage (host : Host) : Bytes → Prop
  | announcement (roundId : ℤ) (epsilon : Decimal) (numBoostRounds : ℤ) (ids : List String)
      (startsAt : String) : OtherMessage host
        (buildRoundAnnouncementAttestation roundId epsilon numBoostRounds ids startsAt)
  | globalModel (roundId : ℤ) (modelBytes : Bytes) (ids : List String) (distributedAt : String) :
      OtherMessage host (buildGlobalModelAttestation host roundId modelBytes ids distributedAt)
  | trustNotification (orgId : String) (roundId : ℤ) (score : ℚ) (reason issuedAt : String) :
      OtherMessage host (buildTrustNotificationAttestation orgId roundId score reason issuedAt)
  | removalConfirm (orgId revokedAt : String) :
      OtherMessage host (buildRemovalConfirmAttestation orgId revokedAt)

/-- The attestation inside a token. -/
def tokenAttestation (body : EnrollTokenRequest) (env : MintEnv) : Bytes :=
  buildEnrollTokenAttestation body.orgId body.displayName env.jti
    (env.now + body.ttlMinutes * 60)

/-- Every message of the coordinator has its own type, and none has that of a token. -/
lemma OtherMessage.readType_ne {att : Bytes} (h : OtherMessage host att) :
    readType att ≠ some "fl.enroll_token.v1" := by
  cases h with
  | announcement roundId epsilon numBoostRounds ids startsAt =>
    rw [buildRoundAnnouncementAttestation, readType_canonicalJson (t := "fl.round_announce.v1") _ rfl]
    · decide
    · exact Json.plain_obj.mpr ⟨by simp, by simp [Json.Plain, Json.ofDecimal, plain_ofStrs]⟩
  | globalModel roundId modelBytes ids distributedAt =>
    rw [buildGlobalModelAttestation, readType_canonicalJson (t := "fl.global_model.v1") _ rfl]
    · decide
    · exact Json.plain_obj.mpr ⟨by simp, by simp [Json.Plain, plain_ofStrs]⟩
  | trustNotification orgId roundId score reason issuedAt =>
    rw [buildTrustNotificationAttestation, readType_canonicalJson (t := "fl.trust_update.v1") _ rfl]
    · decide
    · exact Json.plain_obj.mpr ⟨by simp, by simp [Json.Plain, Json.ofDecimal]⟩
  | removalConfirm orgId revokedAt =>
    rw [buildRemovalConfirmAttestation, readType_canonicalJson (t := "fl.removal_confirm.v1") _ rfl]
    · decide
    · exact Json.plain_obj.mpr ⟨by simp, by simp [Json.Plain]⟩

lemma loads_tokenAttestation (body : EnrollTokenRequest) (env : MintEnv) :
    ∃ tok, Json.loads (tokenAttestation body env) = .ok tok ∧
      tok.get "type" .null = .ok (.str "fl.enroll_token.v1") ∧
      tok.get "org_id" .null = .ok (.str body.orgId) ∧ tok.item "jti" = .ok (.str env.jti) ∧
      tok.item "display_name" = .ok (.str body.displayName) := by
  have hplain : Json.Plain (.obj [
      ("type", .str "fl.enroll_token.v1"),
      ("org_id", .str body.orgId),
      ("display_name", .str body.displayName),
      ("jti", .str env.jti),
      ("expires_at", Json.ofDecimal (Decimal.round (env.now + body.ttlMinutes * 60) 3))]) :=
    Json.plain_obj.mpr ⟨by simp, by simp [Json.Plain, Json.ofDecimal]⟩
  have h := loads_canonicalJson hplain
  exact ⟨_, h, (field_canonicalJson (v := .str "fl.enroll_token.v1") hplain rfl h).1 _,
    (field_canonicalJson (v := .str body.orgId) hplain rfl h).1 _,
    (field_canonicalJson (v := .str env.jti) hplain rfl h).2,
    (field_canonicalJson (v := .str body.displayName) hplain rfl h).2⟩

end Messages

/-! ### Signatures of a run -/

section Unforgeable

variable {app : App}

/-- In the run, a request with this body and these draws minted a token. -/
def MintedIn (app : App) (es : List Event) (body : EnrollTokenRequest) (env : MintEnv) : Prop :=
  ∃ p ∈ steps app es, ∃ user, p.2 = .mintToken user body env ∧
    (mintEnrollToken app user body env p.1.world).1.isOk

/-- What the coordinator may have signed during a run: the tokens it minted, and any message of
another type. -/
def CoordinatorSigned (app : App) (es : List Event) (att : Bytes) : Prop :=
  (∃ body env, MintedIn app es body env ∧ tokenAttestation body env = att) ∨
    OtherMessage app.host att

/-- Nobody forges the coordinator: a token with a valid signature carries a message that the
coordinator signed before. -/
def Unforgeable (app : App) (es : List Event) : Prop :=
  ∀ pre body env post coordPriv att sig, es = pre ++ .redeemToken body env :: post →
    app.coordPriv = some coordPriv → unpackToken app.host body.token = some (att, sig) →
    verify app.host (app.host.ed25519Public coordPriv) att sig = true →
    CoordinatorSigned app pre att

lemma tokenRow_of_mint {s : Sys} {user : Option FLUser} {body : EnrollTokenRequest} {env : MintEnv}
    (hok : (mintEnrollToken app user body env s.world).1.isOk) (later : List Event) :
    ∃ row, (Lib.run (next app) s (.mintToken user body env :: later)).world.store.tokens.get?
        env.jti = some row ∧
      row.orgId = body.orgId ∧ row.expiresAt = env.now + body.ttlMinutes * 60 := by
  have hnew : ∃ row, (next app (.mintToken user body env) s).world.store.tokens.get? env.jti =
      some row ∧ row.orgId = body.orgId ∧ row.expiresAt = env.now + body.ttlMinutes * 60 := by
    rcases mintEnrollToken_spec app s.world user body env with ⟨⟨e, he⟩, -⟩ | ⟨-, hminted, -⟩
    · rw [he] at hok
      cases hok
    · obtain ⟨tokens, hstore, -, hget⟩ := Store.createEnrollToken_ok hminted.created
      have hstate : (next app (.mintToken user body env) s).world.store.tokens.get? env.jti =
          tokens.get? env.jti := congrArg (fun t => t.tokens.get? env.jti) hstore
      exact ⟨_, hstate.trans ((hget env.jti).trans (if_pos rfl)), rfl, rfl⟩
  obtain ⟨row, hrow, horg, hexp⟩ := hnew
  obtain ⟨row', hrow', horg', hexp', -⟩ :=
    tokensKept_run app (next app (.mintToken user body env) s) later env.jti row hrow
  exact ⟨row', hrow', horg'.trans horg, hexp'.trans hexp⟩

lemma tokenRow_of_mintedIn {es : List Event} {body : EnrollTokenRequest} {env : MintEnv}
    (h : MintedIn app es body env) :
    ∃ row, (after app es).world.store.tokens.get? env.jti = some row ∧ row.orgId = body.orgId ∧
      row.expiresAt = env.now + body.ttlMinutes * 60 := by
  obtain ⟨⟨s, e⟩, hstep, user, rfl, hok⟩ := h
  obtain ⟨pre, post, hes, hs⟩ := (mem_visits _).mp hstep
  obtain rfl : s = Lib.run (next app) (init app) pre := hs
  have hafter : after app es = Lib.run (next app) (Lib.run (next app) (init app) pre)
      (.mintToken user body env :: post) := by rw [hes, after, run_append]
  rw [hafter]
  exact tokenRow_of_mint hok post

end Unforgeable

/-! ### What an enrollment rests on -/

section Soundness

variable {app : App} {s : Sys} {x : String} {row : OrgRow}

/-- The event installs `row` as the row of the org `x`. -/
def InstallsRow (app : App) (s : Sys) (e : Event) (x : String) (row : OrgRow) : Prop :=
  s.world.store.getOrg x ≠ some row ∧ (next app e s).world.store.getOrg x = some row

/-- The id in the payload of a token. -/
def presentedJti (host : Host) (token : String) : Option String := do
  let (att, _) ← unpackToken host token
  let tok ← (Json.loads att).toOption
  let jti ← (tok.item "jti").toOption
  jti.str?

/-- The token is one that the coordinator minted and signed for this org and name; it was live and
unused, and is used up. -/
structure TokenBehind (app : App) (pre : List Event) (body : EnrollWithTokenRequest)
    (env : RedeemEnv) (x : String) (row : OrgRow) (mint : EnrollTokenRequest) (draws : MintEnv) :
    Prop where
  minted : MintedIn app pre mint draws
  signed : ∃ coordPriv sig, app.coordPriv = some coordPriv ∧
    unpackToken app.host body.token = some (tokenAttestation mint draws, sig) ∧
    verify app.host (app.host.ed25519Public coordPriv) (tokenAttestation mint draws) sig = true
  type : readType (tokenAttestation mint draws) = some "fl.enroll_token.v1"
  org : x = mint.orgId ∧ row.orgId = mint.orgId
  name : row.displayName = mint.displayName
  presented : presentedJti app.host body.token = some draws.jti
  live : ∃ stored, (after app pre).world.store.tokens.get? draws.jti = some stored ∧
    stored.orgId = mint.orgId ∧ stored.consumed = false ∧
    stored.expiresAt = draws.now + mint.ttlMinutes * 60 ∧ env.consumedAt < stored.expiresAt
  used : ∃ stored, (next app (.redeemToken body env) (after app pre)).world.store.tokens.get?
    draws.jti = some stored ∧ stored.consumed = true

/-- The installed key signed this token together with the X25519 key of the answer. -/
structure KeyBehind (app : App) (s : Sys) (body : EnrollWithTokenRequest) (env : RedeemEnv)
    (row : OrgRow) : Prop where
  installed : row.publicKeyPem = some body.ed25519PubPem
  possession : ∃ pub att sig, publicKeyFromPem app.host (encode body.ed25519PubPem) = .ok pub ∧
    buildEnrollPop app.host body.token body.x25519PubPem = .ok att ∧
    fromHex body.popSignature = some sig ∧ verify app.host pub att sig = true
  sealed : ∀ resp, (enrollWithToken app body env s.world).1 = .ok resp → ∃ package,
    sealPackage app.host body.x25519PubPem package env.ephPriv = .ok resp.sealedPackageB64

/-- The enrollments through tokens that a run contains are sound. -/
structure SelfEnrollmentSound (app : App) (es : List Event) : Prop where
  backed : ∀ pre body env post x row, es = pre ++ .redeemToken body env :: post →
    InstallsRow app (after app pre) (.redeemToken body env) x row →
    (∃ mint draws, TokenBehind app pre body env x row mint draws) ∧
      KeyBehind app (after app pre) body env row
  single : ∀ pre body env mid body' env' post x row x' row' jti,
    es = pre ++ .redeemToken body env :: (mid ++ .redeemToken body' env' :: post) →
    InstallsRow app (after app pre) (.redeemToken body env) x row →
    InstallsRow app (after app (pre ++ .redeemToken body env :: mid)) (.redeemToken body' env')
      x' row' →
    presentedJti app.host body.token = some jti → presentedJti app.host body'.token ≠ some jti
  separate : ∀ pre body env post att sig, es = pre ++ .redeemToken body env :: post →
    unpackToken app.host body.token = some (att, sig) → OtherMessage app.host att →
    (∃ d, (enrollWithToken app body env (after app pre).world).1 = .error d) ∧
      next app (.redeemToken body env) (after app pre) = after app pre

lemma TokenChecked.readType {body : EnrollWithTokenRequest} {tok : Json} {jti : Option String}
    {att sig : Bytes} (h : TokenChecked app body tok jti)
    (hparts : unpackToken app.host body.token = some (att, sig)) :
    Json.loads att = .ok tok ∧ FlCoordinator.readType att = some "fl.enroll_token.v1" := by
  obtain ⟨coordPriv, att', sig', -, hparts', -, hloads⟩ := h.signed
  rw [hparts] at hparts'
  cases hparts'
  obtain ⟨t, ht, hstr⟩ := h.type
  refine ⟨hloads, ?_⟩
  rw [FlCoordinator.readType, hloads]
  simp only [ht]
  cases t with
  | str u => simpa [Json.isStr, Json.str?] using hstr
  | _ => cases hstr

lemma redemption_of_installs {body : EnrollWithTokenRequest} {env : RedeemEnv}
    (h : InstallsRow app s (.redeemToken body env) x row) :
    ∃ tok jti mid, TokenChecked app body tok jti ∧
      Redeemed body.orgId env.consumedAt jti s.world.store mid ∧
      SelfEnrolled app body env tok mid (enrollWithToken app body env s.world).1
        (next app (.redeemToken body env) s).world.store := by
  obtain ⟨hold, hnew⟩ := h
  obtain ⟨-, -, hspec⟩ := enrollWithToken_spec app s.world body env
  rcases hspec with ⟨-, hidle⟩ | ⟨tok, jti, mid, hchecked, hred, ⟨-, hburnt⟩ | hself⟩
  · refine absurd (Eq.trans ?_ hnew) hold
    exact congrArg (fun w => w.store.getOrg x) hidle.symm
  · obtain ⟨trow, -, -, -, -, -, rfl⟩ := Store.consumeEnrollToken_ok hred.consumed
    refine absurd (Eq.trans ?_ hnew) hold
    exact congrArg (fun t => t.getOrg x) hburnt.symm
  · exact ⟨tok, jti, mid, hchecked, hred, hself⟩

lemma row_of_selfEnrolled {body : EnrollWithTokenRequest} {env : RedeemEnv} {tok : Json}
    {jti : Option String} {mid : Store} {r : Except Failure RedeemResponse}
    (h : InstallsRow app s (.redeemToken body env) x row)
    (hred : Redeemed body.orgId env.consumedAt jti s.world.store mid)
    (hself : SelfEnrolled app body env tok mid r
      (next app (.redeemToken body env) s).world.store) :
    x = body.orgId ∧ row.orgId = body.orgId ∧ row.publicKeyPem = some body.ed25519PubPem ∧
      ∃ v, tok.item "display_name" = .ok v ∧ app.host.bindText v = .ok (some row.displayName) := by
  obtain ⟨hold, hnew⟩ := h
  obtain ⟨e, v, hinst, hv, hname, hstore⟩ := hself.row
  obtain ⟨trow, -, -, -, -, -, hmid⟩ := Store.consumeEnrollToken_ok hred.consumed
  rw [hstore, Store.getOrg_insertOrg] at hnew
  split_ifs at hnew with hx
  · obtain rfl := Option.some.inj hnew
    exact ⟨hx.symm.trans hinst.org, hinst.org, hinst.publicKeyPem, v, hv, hname⟩
  · rw [hmid] at hnew
    exact absurd hnew hold

lemma consumed_of_selfEnrolled {body : EnrollWithTokenRequest} {env : RedeemEnv} {tok : Json}
    {jti : Option String} {mid : Store} {r : Except Failure RedeemResponse}
    (hred : Redeemed body.orgId env.consumedAt jti s.world.store mid)
    (hself : SelfEnrolled app body env tok mid r
      (next app (.redeemToken body env) s).world.store) :
    ∃ old, jti = some old.jti ∧ s.world.store.tokens.get? old.jti = some old ∧
      old.orgId = body.orgId ∧ old.consumed = false ∧ env.consumedAt < old.expiresAt ∧
      ∃ new, (next app (.redeemToken body env) s).world.store.tokens.get? old.jti = some new ∧
        new.consumed = true := by
  obtain ⟨old, hjti, hold, horg, hunused, hlive, hmid⟩ :=
    Store.consumeEnrollToken_ok hred.consumed
  obtain ⟨e, v, -, -, -, hstore⟩ := hself.row
  refine ⟨old, hjti, hold, horg, hunused, hlive,
    { old with consumed := true, consumedAt := some env.consumedAt }, ?_, rfl⟩
  rw [hstore, hmid]
  refine (Store.get?_consumeTokenRow s.world.store old.jti env.consumedAt old.jti).trans ?_
  rw [if_pos rfl, hold]
  rfl

/-- With the signatures of the coordinator unforged, the token was minted for this row. -/
lemma tokenBehind_of_installs {es pre post : List Event} {body : EnrollWithTokenRequest}
    {env : RedeemEnv} (hforge : Unforgeable app es)
    (hes : es = pre ++ .redeemToken body env :: post)
    (h : InstallsRow app (after app pre) (.redeemToken body env) x row) :
    ∃ mint draws, TokenBehind app pre body env x row mint draws := by
  obtain ⟨tok, jti, mid, hchecked, hred, hself⟩ := redemption_of_installs h
  obtain ⟨coordPriv, att, sig, hkey, hparts, hverify, -⟩ := hchecked.signed
  obtain ⟨hloads, htype⟩ := hchecked.readType hparts
  rcases hforge pre body env post coordPriv att sig hes hkey hparts hverify
    with ⟨mint, draws, hminted, rfl⟩ | hother
  · obtain ⟨tok', hloads', -, horg, hitem, hname⟩ := loads_tokenAttestation mint draws
    obtain rfl := Except.ok.inj (hloads.symm.trans hloads')
    obtain ⟨hx, hrowOrg, -, v, hv, hbind⟩ := row_of_selfEnrolled h hred hself
    obtain ⟨old, hold, hstored, -, hunused, hlive, hused⟩ := consumed_of_selfEnrolled hred hself
    -- the id, the org and the name that were read are those of the minting
    have hjti : jti = some draws.jti := by
      obtain ⟨w, hw, hbind⟩ := hchecked.named
      rw [hitem] at hw
      cases hw
      exact (Except.ok.inj hbind).symm
    have hbody : mint.orgId = body.orgId := by
      obtain ⟨w, hw, hstr⟩ := hchecked.org
      rw [horg] at hw
      cases hw
      simpa [Json.isStr] using hstr
    have hdisplay : row.displayName = mint.displayName := by
      rw [hname] at hv
      cases hv
      exact (Option.some.inj (Except.ok.inj hbind)).symm
    obtain ⟨stored, hget, hstoredOrg, hexp⟩ := tokenRow_of_mintedIn hminted
    rw [hjti] at hold
    rw [← Option.some.inj hold] at hused
    rw [← Option.some.inj hold, hget] at hstored
    obtain rfl := Option.some.inj hstored
    exact ⟨mint, draws, hminted, ⟨coordPriv, sig, hkey, hparts, hverify⟩, htype,
      ⟨hx.trans hbody.symm, hrowOrg.trans hbody.symm⟩, hdisplay,
      by simp [presentedJti, hparts, hloads, hitem, Json.str?, Except.toOption],
      ⟨_, hget, hstoredOrg, hunused, hexp, hlive⟩, hused⟩
  · exact absurd htype hother.readType_ne

/-- Self-enrollment is sound in every run in which nobody forges the coordinator's signature. -/
theorem self_enrollment_sound {es : List Event} (hforge : Unforgeable app es) :
    SelfEnrollmentSound app es where
  backed pre body env post x row hes h := by
    obtain ⟨tok, jti, mid, hchecked, hred, hself⟩ := redemption_of_installs h
    obtain ⟨-, -, hpem, -⟩ := row_of_selfEnrolled h hred hself
    exact ⟨tokenBehind_of_installs hforge hes h, hpem, hchecked.pop, hself.sealed⟩
  single pre body env mid body' env' post x row x' row' jti hes h h' hjti hjti' := by
    obtain ⟨mint, draws, hbehind⟩ := tokenBehind_of_installs hforge hes h
    have hes' : es = (pre ++ .redeemToken body env :: mid) ++ .redeemToken body' env' :: post := by
      rw [hes]
      simp
    obtain ⟨mint', draws', hbehind'⟩ := tokenBehind_of_installs hforge hes' h'
    have hsame : draws.jti = draws'.jti := by
      rw [hbehind.presented] at hjti
      rw [hbehind'.presented] at hjti'
      exact Option.some.inj (hjti.trans hjti'.symm)
    -- the first redemption used the token up, and the second found it unused
    obtain ⟨stored, hget, hused⟩ := hbehind.used
    obtain ⟨kept, hkept, -, -, hstays⟩ := tokensKept_run app _ mid draws.jti stored hget
    obtain ⟨found, hfound, -, hunused, -⟩ := hbehind'.live
    rw [← hsame, after_append, run_cons, hkept] at hfound
    obtain rfl := Option.some.inj hfound
    rw [hstays hused] at hunused
    cases hunused
  separate pre body env post att sig hes hparts hother := by
    obtain ⟨-, -, hspec⟩ := enrollWithToken_spec app (after app pre).world body env
    rcases hspec with ⟨hfail, hidle⟩ | ⟨tok, jti, mid, hchecked, -⟩
    · exact ⟨hfail, congrArg (fun w => { after app pre with world := w }) hidle⟩
    · exact absurd (hchecked.readType hparts).2 hother.readType_ne

/-- A token is minted and the org enrolls itself with it. -/
def mintedAndRedeemed : List Event :=
  [Sample.mint "x" "a", Sample.redeem "x" "a" (List.replicate 9 4) 12]

lemma unforgeable_mintedAndRedeemed : Unforgeable Sample.app mintedAndRedeemed := by
  intro pre body env post coordPriv att sig hes _ hparts _
  have hminted : MintedIn Sample.app [Sample.mint "x" "a"] (Sample.tokenBody "x")
      { jti := "a", now := 0, insertedAt := 0, loggedAt := Sample.zero } :=
    ⟨_, List.mem_singleton_self _, some Sample.admin, rfl, by decide +kernel⟩
  cases pre with
  | nil => cases hes
  | cons e pre =>
    obtain ⟨rfl, htail⟩ := List.cons.inj hes
    cases pre with
    | cons e pre => cases pre <;> cases htail
    | nil =>
      obtain ⟨he, -⟩ := List.cons.inj htail
      obtain ⟨rfl, -⟩ := Event.redeemToken.inj he
      have hread : (unpackToken Sample.host (Sample.token "x" "a")).map (·.1) = some
          (tokenAttestation (Sample.tokenBody "x")
            { jti := "a", now := 0, insertedAt := 0, loggedAt := Sample.zero }) := by
        decide +kernel
      refine Or.inl ⟨_, _, hminted, ?_⟩
      change unpackToken Sample.host (Sample.token "x" "a") = some (att, sig) at hparts
      rw [hparts] at hread
      exact (Option.some.inj hread).symm

theorem self_enrollment_sound_mintedAndRedeemed :
    SelfEnrollmentSound Sample.app mintedAndRedeemed ∧
      ((after Sample.app mintedAndRedeemed).world.store.getOrg "x").map (·.status) =
        some .active :=
  ⟨self_enrollment_sound unforgeable_mintedAndRedeemed, by decide +kernel⟩

end Soundness

end FlCoordinator
