import FlCoordinator.Sample
import FlCoordinator.Separation

/-!
# Who acts as an operator

A session opens with an API key, lasts eight hours and names its user. Every change that an operator
endpoint makes is one of a listed user with the permission.
-/

namespace FlCoordinator

open Lib Handler

/-! ### Sessions -/

/-- PyJWT on the tokens of the coordinator: they verify under the secret from `iat` until `exp`. -/
structure Jwt.Sound (jwt : Jwt) (secret : String) : Prop where
  nonempty : ∀ user iat exp, jwt.encode (tokenPayload user iat exp) secret ≠ ""
  decode : ∀ (user : FLUser) (iat exp : ℤ) (now : ℚ),
    jwt.decode (jwt.encode (tokenPayload user iat exp) secret) secret now =
      if now < iat then .error .invalidToken
      else if exp ≤ now then .error .expiredSignature
      else .ok (tokenPayload user iat exp)

namespace Sample

/-- The secret, a dot and the payload. -/
def signToken (payload : Json) (secret : String) : String := secret ++ "." ++ Json.dumps payload

/-- The payload of a token that starts with the secret and is read between `iat` and `exp`. -/
def readToken (token secret : String) (now : ℚ) : Except JwtError Json :=
  if (secret ++ ".").toList.isPrefixOf token.toList then
    match Json.parse (token.toList.drop (secret ++ ".").length) with
    | .error _ => .error .invalidToken
    | .ok payload =>
      match payload.get "iat" .null, payload.get "exp" .null with
      | .ok (.int iat), .ok (.int exp) =>
        if now < iat then .error .invalidToken
        else if exp ≤ now then .error .expiredSignature
        else .ok payload
      | _, _ => .error .invalidToken
  else .error .invalidToken

def jwt : Jwt := ⟨signToken, readToken⟩

lemma plain_tokenPayload (user : FLUser) (iat exp : ℤ) : (tokenPayload user iat exp).Plain := by
  refine ⟨?_, trivial, trivial, trivial, trivial, trivial, trivial⟩
  simp

lemma jwt_sound (secret : String) : jwt.Sound secret where
  nonempty user iat exp h := by
    have hlength := congrArg String.length h
    simp [jwt, signToken] at hlength
  decode user iat exp now := by
    have hpre : (secret ++ ".").toList.isPrefixOf
        (signToken (tokenPayload user iat exp) secret).toList = true := by
      rw [List.isPrefixOf_iff_prefix]
      simp [signToken]
    have hrest : (signToken (tokenPayload user iat exp) secret).toList.drop
        (secret ++ ".").length = Json.text Json.spaced (tokenPayload user iat exp) := by
      rw [signToken, String.toList_append, ← String.length_toList, List.drop_left, Json.dumps]
      exact String.toList_ofList
    have hparse := Json.parse_text Json.readable_spaced _ (plain_tokenPayload user iat exp)
    change readToken (signToken (tokenPayload user iat exp) secret) secret now = _
    rw [readToken, if_pos hpre, hrest, hparse]
    rfl

/-- The user with the API key. -/
def withKey (user : FLUser) (key : String) : RosterUser :=
  { user with apiKeyHash := (generateFlApiKey host key).2 }

/-- An administrator and an operator with their API keys. -/
def console : Console where
  app := app
  auth := FLAuthManager.ofUsers "s" [withKey admin "a", withKey operator "o"]
  jwt := jwt

def loginEnv : LoginEnv := ⟨10, 10, zero⟩

/-- The cookie of a session that is opened ten seconds after the epoch. -/
def cookie (user : FLUser) : SessionCookie where
  value := sessionToken console user loginEnv
  httponly := true
  secure := false
  samesite := "lax"
  maxAge := 28800
  path := "/"

end Sample

/-- The session is accepted at the time `now`. -/
def LoginEnv.Live (env : LoginEnv) (now : ℚ) : Prop :=
  wholeSeconds env.iatAt ≤ now ∧ now < (wholeSeconds env.expAt + 8 * 3600 : ℤ)

instance (env : LoginEnv) (now : ℚ) : Decidable (env.Live now) := instDecidableAnd

section Sessions

variable {c : Console}

lemma login_cookie {username apiKey : String} {env : LoginEnv} {w : World} {resp : LoginResponse}
    {cookie : SessionCookie} (h : (login c username apiKey env w).1 = .ok resp)
    (hcookie : resp.cookie = some cookie) :
    ∃ user, c.auth.HoldsKey c.app.host apiKey user ∧ user.username = username ∧
      cookie.value = sessionToken c user.toFLUser env := by
  have hspec : (login c username apiKey env).wp (fun r _ => ∀ resp cookie, r = .ok resp →
      resp.cookie = some cookie → ∃ user, c.auth.HoldsKey c.app.host apiKey user ∧
        user.username = username ∧ cookie.value = sessionToken c user.toFLUser env) w := by
    unfold login
    apply wp_attempt_bind (fun _ _ => nofun)
    intro found hfound
    split
    · intro resp cookie hr hc
      cases hr
      cases hc
    · rename_i user huser
      apply wp_log_bind
      intro resp cookie hr hc
      cases hr
      cases hc
      have hmem := Option.filter_eq_some_iff.mp huser
      rw [hmem.1] at hfound
      exact ⟨user, FLAuthManager.authenticateApiKey_some hfound, of_decide_eq_true hmem.2, rfl⟩
  exact hspec resp cookie h hcookie

lemma verifyJwt_sessionToken (hjwt : c.jwt.Sound c.auth.jwtSecret) {user : RosterUser}
    (hlisted : c.auth.Lists user) (env : LoginEnv) (now : ℚ) :
    c.auth.verifyJwt c.jwt (sessionToken c user.toFLUser env) now =
      .ok (if env.Live now then some user else none) := by
  have hdecode := hjwt.decode user.toFLUser (wholeSeconds env.iatAt)
    (wholeSeconds env.expAt + 8 * 3600) now
  have htoken : sessionToken c user.toFLUser env = c.jwt.encode (tokenPayload user.toFLUser
      (wholeSeconds env.iatAt) (wholeSeconds env.expAt + 8 * 3600)) c.auth.jwtSecret := rfl
  rw [← htoken] at hdecode
  unfold FLAuthManager.verifyJwt
  rw [hdecode]
  by_cases hiat : now < wholeSeconds env.iatAt
  · have hlive : ¬env.Live now := fun h => absurd h.1 (not_le.mpr hiat)
    rw [if_pos hiat, if_neg hlive]
  · by_cases hexp : (wholeSeconds env.expAt + 8 * 3600 : ℤ) ≤ now
    · have hlive : ¬env.Live now := fun h => absurd h.2 (not_lt.mpr hexp)
      rw [if_neg hiat, if_pos hexp, if_neg hlive]
    · have hlive : env.Live now := ⟨not_lt.mp hiat, not_le.mp hexp⟩
      rw [if_neg hiat, if_neg hexp, if_pos hlive]
      change c.auth.userOfSub (.str user.username) = .ok (some user)
      rw [FLAuthManager.userOfSub, hlisted]

lemma userOfToken_sessionToken (hjwt : c.jwt.Sound c.auth.jwtSecret) {user : RosterUser}
    (hlisted : c.auth.Lists user) (env : LoginEnv) (now : ℚ) :
    userOfToken c.auth c.jwt (some (sessionToken c user.toFLUser env)) now =
      .ok (if env.Live now then some user else none) := by
  have hne : sessionToken c user.toFLUser env ≠ "" := hjwt.nonempty _ _ _
  have hfilter : (some (sessionToken c user.toFLUser env)).filter (· ≠ "") =
      some (sessionToken c user.toFLUser env) := by simp [Option.filter, hne]
  unfold userOfToken
  rw [hfilter]
  exact verifyJwt_sessionToken hjwt hlisted env now

/-- The cookie of a login opens the pages as its user from `iat` to `exp`, in any state: nothing that
happens meanwhile ends the session, a logout included. -/
theorem session_window (hjwt : c.jwt.Sound c.auth.jwtSecret) {username apiKey : String}
    {env : LoginEnv} {w : World} {resp : LoginResponse} {cookie : SessionCookie}
    (h : (login c username apiKey env w).1 = .ok resp) (hcookie : resp.cookie = some cookie) :
    ∃ user, c.auth.HoldsKey c.app.host apiKey user ∧ user.username = username ∧
      ∀ template active now t, (renderPage c template active (some cookie.value) now t).1 =
        if env.Live now then
          .ok { template, username, role := user.role.value, perms := perms user.toFLUser, active }
        else .error (.http 303 "Not authenticated") := by
  obtain ⟨user, hholds, rfl, hvalue⟩ := login_cookie h hcookie
  refine ⟨user, hholds, rfl, ?_⟩
  intro template active now t
  have hfound : currentUserFromCookie c (some cookie.value) now =
      .ok (if env.Live now then some user else none) := by
    rw [hvalue]
    exact userOfToken_sessionToken hjwt hholds.listed env now
  unfold renderPage requireUser
  rw [hfound]
  split_ifs <;> rfl

/-- A session of the operator. -/
theorem session_window_operator :
    ∃ user, Sample.console.auth.HoldsKey Sample.console.app.host "o" user ∧
      user.username = "op" ∧ ∀ template active now t,
        (renderPage Sample.console template active
            (some (Sample.cookie Sample.operator).value) now t).1 =
        if Sample.loginEnv.Live now then
          .ok { template, username := "op", role := user.role.value, perms := perms user.toFLUser,
                active }
        else .error (.http 303 "Not authenticated") := by
  have hlogin : (login Sample.console "op" "o" Sample.loginEnv (init Sample.app).world).1 =
      .ok { location := "/dashboard", cookie := some (Sample.cookie Sample.operator) } := by
    decide +kernel
  exact session_window (Sample.jwt_sound _) hlogin rfl

end Sessions

/-! ### Permissions -/

/-- The operator that a request comes from. -/
def Event.user : Event → Option FLUser
  | .enroll user .. => user
  | .mintToken user .. => user
  | .redeemToken .. => none
  | .block user .. => user
  | .unblock user .. => user
  | .revoke user .. => user
  | .leaveRequest .. => none
  | .approveRemoval user .. => user
  | .startRound user .. => user
  | .challenge .. => none
  | .contribute _ => none
  | .resume .. => none
  | .aggregate user .. => user
  | .publish user .. => user
  | .rollback user .. => user

section Permissions

variable {app : App} {s : Sys} {e : Event} {p : String}

lemma flRequire_unpermitted {α : Type} {user : Option FLUser} {f : FLUser → Api α}
    (hno : ¬Permitted user p) (w : World) : ((flRequire user p >>= f) w).2 = w := by
  have hspec : (flRequire user p >>= f).wp (fun _ t => t = w) w := by
    apply wp_flRequire_bind (fun _ _ => rfl)
    intro u hu hp
    exact absurd ⟨u, hu, hp⟩ hno
  exact hspec

lemma Sys.run_eq_self {α : Type} {m : Api α} (h : (m s.world).2 = s.world) : s.run m = s := by
  unfold Sys.run
  rw [h]

/-- Without its permission an event changes nothing. -/
theorem next_unpermitted (he : e.permission = some p) (hno : ¬Permitted e.user p) :
    next app e s = s := by
  cases e with
  | enroll user body env =>
    cases he
    exact Sys.run_eq_self (flRequire_unpermitted hno _)
  | mintToken user body env =>
    cases he
    exact Sys.run_eq_self (flRequire_unpermitted hno _)
  | block user orgId t =>
    cases he
    exact Sys.run_eq_self (flRequire_unpermitted hno _)
  | unblock user orgId t =>
    cases he
    exact Sys.run_eq_self (flRequire_unpermitted hno _)
  | revoke user orgId crl t =>
    cases he
    exact Sys.run_eq_self (flRequire_unpermitted hno _)
  | approveRemoval user orgId env =>
    cases he
    exact Sys.run_eq_self (flRequire_unpermitted hno _)
  | startRound user body env =>
    cases he
    exact Sys.run_eq_self (flRequire_unpermitted hno _)
  | aggregate user roundId env =>
    cases he
    exact Sys.run_eq_self (flRequire_unpermitted hno _)
  | publish user roundId env =>
    cases he
    exact Sys.run_eq_self (flRequire_unpermitted hno _)
  | rollback user versionId env =>
    cases he
    exact Sys.run_eq_self (flRequire_unpermitted hno _)
  | _ => cases he

lemma user_withUser {user : Option FLUser} (he : e.permission = some p) :
    (e.withUser user).user = user := by
  cases e <;> first | rfl | cases he

lemma permission_withUser (user : Option FLUser) : (e.withUser user).permission = e.permission := by
  cases e <;> rfl

end Permissions

/-! ### Authority -/

/-- The token comes with the request, which checks it at the time `now`. -/
def Credentials.Carries (creds : Credentials) (env : AuthEnv) (token : String) (now : ℚ) : Prop :=
  creds.bearer = some token ∧ now = env.bearerAt ∨ creds.flSession = some token ∧ now = env.sessionAt

/-- The event is a login that hands out the token. -/
def HandsOut (c : Console) (w : World) (l : ConsoleEvent) (token : String) : Prop :=
  ∃ username apiKey env resp cookie, l = .login username apiKey env ∧
    (login c username apiKey env w).1 = .ok resp ∧ resp.cookie = some cookie ∧ cookie.value = token

/-- Tokens of this coordinator come from its logins: nobody else signs with its secret. -/
def NoForgedToken (c : Console) (cs : List ConsoleEvent) : Prop :=
  ∀ pre creds env e post, cs = pre ++ .request creds env e :: post → ∀ token now payload,
    creds.Carries env token now → c.jwt.decode token c.auth.jwtSecret now = .ok payload →
    payload.get "iss" .null = .ok (.str "fl-coordinator") →
    ∃ before l between, pre = before ++ l :: between ∧ HandsOut c (c.after before).world l token

/-- What lets a request act as `user` after the events `pre`: the API key of the user, or a live
session that the user opened with it. -/
inductive Authentic (c : Console) (pre : List ConsoleEvent) (creds : Credentials) (env : AuthEnv)
    (user : RosterUser) : Prop
  | key (apiKey : String) (sent : creds.apiKey = some apiKey)
      (holds : c.auth.HoldsKey c.app.host apiKey user)
  | session (before : List ConsoleEvent) (apiKey : String) (opened : LoginEnv)
      (between : List ConsoleEvent) (now : ℚ)
      (login : pre = before ++ .login user.username apiKey opened :: between)
      (holds : c.auth.HoldsKey c.app.host apiKey user)
      (sent : creds.Carries env (sessionToken c user.toFLUser opened) now)
      (live : opened.Live now)

section Authority

variable {c : Console} {cs pre post : List ConsoleEvent} {creds : Credentials} {env : AuthEnv}
  {e : Event} {p : String} {user : RosterUser}

lemma authentic_of_token (hjwt : c.jwt.Sound c.auth.jwtSecret) (hforge : NoForgedToken c cs)
    (hcs : cs = pre ++ .request creds env e :: post) {token : String} {now : ℚ}
    (hsent : creds.Carries env token now)
    (hverify : c.auth.verifyJwt c.jwt token now = .ok (some user)) :
    Authentic c pre creds env user := by
  obtain ⟨payload, hdecode, hiss, -, -⟩ := FLAuthManager.verifyJwt_some hverify
  obtain ⟨before, l, between, hpre, username, apiKey, opened, resp, cookie, rfl, hlogin, hcookie,
    rfl⟩ := hforge pre creds env e post hcs token now payload hsent hdecode hiss
  obtain ⟨holder, hholds, rfl, hvalue⟩ := login_cookie hlogin hcookie
  rw [hvalue, verifyJwt_sessionToken hjwt hholds.listed] at hverify
  have hlive : opened.Live now ∧ holder = user := by
    by_cases hl : opened.Live now
    · rw [if_pos hl] at hverify
      exact ⟨hl, Option.some.inj (Except.ok.inj hverify)⟩
    · rw [if_neg hl] at hverify
      cases hverify
  obtain ⟨hl, rfl⟩ := hlive
  rw [hvalue] at hsent
  exact .session before apiKey opened between now hpre hholds hsent hl

lemma authentic_of_getFlUser (hjwt : c.jwt.Sound c.auth.jwtSecret) (hforge : NoForgedToken c cs)
    (hcs : cs = pre ++ .request creds env e :: post)
    (h : getFlUser c.auth c.app.host c.jwt creds env = .ok (some user)) :
    Authentic c pre creds env user := by
  rcases FLAuthManager.getFlUser_some h with ⟨t, ht, hv⟩ | ⟨t, ht, hv⟩ | ⟨key, hkey, hv⟩
  · exact authentic_of_token hjwt hforge hcs (Or.inl ⟨ht, rfl⟩) hv
  · exact authentic_of_token hjwt hforge hcs (Or.inr ⟨ht, rfl⟩) hv
  · exact .key key hkey (FLAuthManager.authenticateApiKey_some hv)

lemma Authentic.listed (h : Authentic c pre creds env user) : c.auth.Lists user := by
  cases h with
  | key apiKey sent holds => exact holds.listed
  | session before apiKey opened between now login holds sent live => exact holds.listed

lemma resolve_operator (hp : e.permission = some p) :
    c.resolve creds env e = (getFlUser c.auth c.app.host c.jwt creds env).toOption.map fun user =>
      e.withUser (user.map RosterUser.toFLUser) := by
  unfold Console.resolve
  simp only [hp]
  cases getFlUser c.auth c.app.host c.jwt creds env <;> rfl

lemma next_request_some {e' : Event} {s : Sys} (h : c.resolve creds env e = some e') :
    c.next (.request creds env e) s = next c.app e' s := by
  simp only [Console.next, h]

lemma next_request_none {s : Sys} (h : c.resolve creds env e = none) :
    c.next (.request creds env e) s = s := by
  simp only [Console.next, h]

/-- A request to an operator endpoint that changes the state is one of a listed user with the
permission, who sent the API key or a live session opened with it. -/
theorem operator_authority (hjwt : c.jwt.Sound c.auth.jwtSecret) (hforge : NoForgedToken c cs)
    (hcs : cs = pre ++ .request creds env e :: post) (hp : e.permission = some p)
    (hchange : c.next (.request creds env e) (c.after pre) ≠ c.after pre) :
    ∃ user, c.auth.Lists user ∧ p ∈ user.role.permissions ∧ Authentic c pre creds env user ∧
      c.resolve creds env e = some (e.withUser (some user.toFLUser)) := by
  have hres := (resolve_operator hp : c.resolve creds env e = _)
  cases hget : getFlUser c.auth c.app.host c.jwt creds env with
  | error d =>
    rw [hget] at hres
    exact absurd (next_request_none hres) hchange
  | ok found =>
    rw [hget] at hres
    rw [next_request_some hres] at hchange
    have hpermitted : Permitted (found.map RosterUser.toFLUser) p := by
      by_contra hno
      apply hchange
      apply next_unpermitted ((permission_withUser _).trans hp)
      rw [user_withUser hp]
      exact hno
    obtain ⟨u, hu, hrole⟩ := hpermitted
    obtain ⟨user, rfl, rfl⟩ := Option.map_eq_some_iff.mp hu
    have hauth := authentic_of_getFlUser hjwt hforge hcs hget
    exact ⟨user, hauth.listed, hrole, hauth, hres⟩

/-- The administrator logs in and mints a token in the session. -/
def Sample.loginThenMint : List ConsoleEvent :=
  [.login "root" "a" Sample.loginEnv,
    .request { flSession := some (Sample.cookie Sample.admin).value } ⟨20, 20⟩ (Sample.mint "x" "j")]

lemma Sample.login_admin :
    (login Sample.console "root" "a" Sample.loginEnv (init Sample.app).world).1 =
      .ok { location := "/dashboard", cookie := some (Sample.cookie Sample.admin) } := by
  decide +kernel

lemma Sample.loginThenMint_noForgedToken : NoForgedToken Sample.console Sample.loginThenMint := by
  intro pre creds env e post hcs token now payload hsent hdecode hiss
  have hlogin : HandsOut Sample.console (init Sample.app).world
      (.login "root" "a" Sample.loginEnv) (Sample.cookie Sample.admin).value :=
    ⟨_, _, _, _, _, rfl, Sample.login_admin, rfl, rfl⟩
  cases pre with
  | nil => cases (List.cons.inj hcs).1
  | cons l pre =>
    obtain ⟨hl, hrest⟩ := List.cons.inj hcs
    cases pre with
    | nil =>
      obtain ⟨rfl, -, -⟩ := ConsoleEvent.request.inj (List.cons.inj hrest).1
      have htoken : token = (Sample.cookie Sample.admin).value := by
        rcases hsent with ⟨h, -⟩ | ⟨h, -⟩
        · cases h
        · exact (Option.some.inj h).symm
      rw [htoken, ← hl]
      exact ⟨[], _, [], rfl, hlogin⟩
    | cons l' pre =>
      have hlen := congrArg List.length (List.cons.inj hrest).2
      simp at hlen

theorem operator_authority_mint :
    ∃ user, Sample.console.auth.Lists user ∧ "fl_enroll_org" ∈ user.role.permissions ∧
      Authentic Sample.console [.login "root" "a" Sample.loginEnv]
        { flSession := some (Sample.cookie Sample.admin).value } ⟨20, 20⟩ user ∧
      Sample.console.resolve { flSession := some (Sample.cookie Sample.admin).value } ⟨20, 20⟩
        (Sample.mint "x" "j") =
          some ((Sample.mint "x" "j").withUser (some user.toFLUser)) := by
  apply operator_authority (Sample.jwt_sound _) Sample.loginThenMint_noForgedToken rfl rfl
  intro h
  have hrow := congrArg (fun s => (s.world.store.tokens.get? "j").isSome) h
  revert hrow
  decide +kernel

end Authority

end FlCoordinator
