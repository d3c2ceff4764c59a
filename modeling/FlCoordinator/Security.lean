import FlCoordinator.App

/-!
# Operators

The roster, API keys and session tokens of `coordinator/security.py`, and how an `/fl` endpoint
finds out which operator calls it (`get_fl_user` in `coordinator/api.py`). PyJWT is a parameter.
-/

namespace FlCoordinator

open Lib

/-! ### Tokens -/

/-- What `jwt.decode` raises. -/
inductive JwtError
  | expiredSignature
  | invalidToken
  | other (e : PyErr)

/-- PyJWT with HS256. A decoder reads the clock. -/
structure Jwt where
  encode : Json → String → String
  decode : String → String → ℚ → Except JwtError Json

/-! ### The roster -/

/-- An `FLUser` with its `api_key_hash`. -/
structure RosterUser extends FLUser where
  apiKeyHash : String
  deriving DecidableEq

/-- The users are a dict by name. -/
structure FLAuthManager where
  jwtSecret : String
  users : List (String × RosterUser)
  named : ∀ p ∈ users, p.2.username = p.1
  nodup : (users.map Prod.fst).Nodup

lemma named_setItems {users : List RosterUser} {d : List (String × RosterUser)}
    (h : ∀ p ∈ d, p.2.username = p.1) :
    ∀ p ∈ setItems (users.map fun u => (u.username, u)) d, p.2.username = p.1 := by
  induction users generalizing d with
  | nil => exact h
  | cons u users ih =>
    apply ih
    intro p hp
    rcases mem_setItem hp with rfl | hmem
    · rfl
    · exact h p hmem

/-- `FLAuthManager(jwt_secret, users)`: of two users of one name the later one stays. -/
def FLAuthManager.ofUsers (jwtSecret : String) (users : List RosterUser) : FLAuthManager where
  jwtSecret
  users := setItems (users.map fun u => (u.username, u)) []
  named := named_setItems (by simp)
  nodup := nodup_keys_setItems (by simp)

/-- `hmac.compare_digest` on strings, which must be ASCII. -/
def compareDigest (a b : String) : Except PyErr Bool :=
  if (encode a).all (· < 128) ∧ (encode b).all (· < 128) then .ok (decide (a = b))
  else .error .typeError

/-- `int(t)` of a clock reading. -/
def wholeSeconds (t : ℚ) : ℤ := if 0 ≤ t then ⌊t⌋ else ⌈t⌉

/-- The payload of a session token. -/
def tokenPayload (user : FLUser) (iat exp : ℤ) : Json :=
  .obj [
    ("sub", .str user.username),
    ("role", .str user.role.value),
    ("iss", .str "fl-coordinator"),
    ("iat", .int iat),
    ("exp", .int exp)]

namespace FLAuthManager

variable (am : FLAuthManager) (host : Host) (jwt : Jwt)

/-- The first user of the roster with this hash. -/
def matchKey (keyHash : String) : List (String × RosterUser) → Except PyErr (Option RosterUser)
  | [] => .ok none
  | (_, user) :: users => do
    let same ← compareDigest user.apiKeyHash keyHash
    if same then .ok (some user) else matchKey keyHash users

def authenticateApiKey (apiKey : String) : Except PyErr (Option RosterUser) :=
  if apiKey = "" then .ok none
  else matchKey (host.sha256hex (encode apiKey)) am.users

/-- `create_jwt`, which reads the clock twice. -/
def createJwt (user : FLUser) (expiresHours : ℤ) (iatAt expAt : ℚ) : String :=
  jwt.encode (tokenPayload user (wholeSeconds iatAt)
    (wholeSeconds expAt + expiresHours * 3600)) am.jwtSecret

/-- `self.users.get(sub)`. -/
def userOfSub (sub : Json) : Except PyErr (Option RosterUser) :=
  match sub with
  | .str name => .ok (getItem name am.users)
  | v => if v.hashable then .ok none else .error .typeError

/-- The role comes from the roster, not from the token. -/
def verifyJwt (token : String) (now : ℚ) : Except PyErr (Option RosterUser) :=
  match jwt.decode token am.jwtSecret now with
  | .error .expiredSignature => .ok none
  | .error .invalidToken => .ok none
  | .error (.other e) => .error e
  | .ok payload => do
    let iss ← payload.get "iss" .null
    if iss.isStr "fl-coordinator" = false then .ok none
    else do
      let sub ← payload.item "sub"
      am.userOfSub sub

end FLAuthManager

/-- `generate_fl_api_key`, with the key it draws. -/
def generateFlApiKey (host : Host) (key : String) : String × String :=
  (key, host.sha256hex (encode key))

/-! ### The caller of an operator endpoint -/

/-- The credentials of a request: a bearer token, the session cookie and an API key. -/
structure Credentials where
  bearer : Option String := none
  flSession : Option String := none
  apiKey : Option String := none

/-- The clock readings of the two token checks. -/
structure AuthEnv where
  bearerAt : ℚ
  sessionAt : ℚ

section Caller

variable (am : FLAuthManager) (host : Host) (jwt : Jwt)

/-- The user of a token, when there is one and it is not empty. -/
def userOfToken (token : Option String) (now : ℚ) : Except PyErr (Option RosterUser) :=
  match token.filter (· ≠ "") with
  | none => .ok none
  | some t => am.verifyJwt jwt t now

/-- `get_fl_user`: the first of the three credentials that names a user; `None` stands for the
response 401. -/
def getFlUser (creds : Credentials) (env : AuthEnv) : Except PyErr (Option RosterUser) := do
  let byBearer ← userOfToken am jwt creds.bearer env.bearerAt
  if byBearer.isSome then .ok byBearer
  else do
    let bySession ← userOfToken am jwt creds.flSession env.sessionAt
    if bySession.isSome then .ok bySession
    else
      match creds.apiKey.filter (· ≠ "") with
      | none => .ok none
      | some key => am.authenticateApiKey host key

end Caller

/-! ### What a credential proves -/

namespace FLAuthManager

variable {am : FLAuthManager} {host : Host} {jwt : Jwt} {user : RosterUser}

/-- The user stands in the roster under its name. -/
def Lists (am : FLAuthManager) (user : RosterUser) : Prop :=
  getItem user.username am.users = some user

/-- The key is the API key of a listed user. -/
structure HoldsKey (am : FLAuthManager) (host : Host) (apiKey : String) (user : RosterUser) :
    Prop where
  listed : am.Lists user
  hash : user.apiKeyHash = host.sha256hex (encode apiKey)

lemma lists_of_mem {p : String × RosterUser} (hp : p ∈ am.users) : am.Lists p.2 := by
  rw [Lists, am.named p hp]
  exact getItem_of_mem am.nodup hp

lemma lists_of_getItem {name : String} (h : getItem name am.users = some user) :
    am.Lists user ∧ user.username = name := by
  have hmem := mem_of_getItem h
  exact ⟨lists_of_mem hmem, am.named _ hmem⟩

lemma compareDigest_true {a b : String} (h : compareDigest a b = .ok true) : a = b := by
  unfold compareDigest at h
  split_ifs at h
  exact of_decide_eq_true (Except.ok.inj h)

lemma matchKey_some {keyHash : String} {users : List (String × RosterUser)}
    (h : matchKey keyHash users = .ok (some user)) :
    ∃ p ∈ users, p.2 = user ∧ user.apiKeyHash = keyHash := by
  induction users with
  | nil => cases h
  | cons p users ih =>
    obtain ⟨name, u⟩ := p
    obtain ⟨same, hsame, h⟩ := bind_eq_ok.mp h
    cases same with
    | true =>
      cases h
      exact ⟨(name, user), List.mem_cons_self, rfl, compareDigest_true hsame⟩
    | false =>
      obtain ⟨q, hq, hrest⟩ := ih h
      exact ⟨q, List.mem_cons_of_mem _ hq, hrest⟩

/-- An API key names a listed user with its hash. -/
theorem authenticateApiKey_some {apiKey : String}
    (h : am.authenticateApiKey host apiKey = .ok (some user)) : am.HoldsKey host apiKey user := by
  unfold authenticateApiKey at h
  split_ifs at h with hempty
  · cases h
  obtain ⟨p, hp, rfl, hhash⟩ := matchKey_some h
  exact ⟨lists_of_mem hp, hhash⟩

/-- A token names a listed user only through a payload of this coordinator. -/
theorem verifyJwt_some {token : String} {now : ℚ} (h : am.verifyJwt jwt token now = .ok (some user)) :
    ∃ payload, jwt.decode token am.jwtSecret now = .ok payload ∧
      payload.get "iss" .null = .ok (.str "fl-coordinator") ∧
      payload.item "sub" = .ok (.str user.username) ∧ am.Lists user := by
  unfold verifyJwt at h
  split at h
  · cases h
  · cases h
  · cases h
  · rename_i payload hdecode
    refine ⟨payload, hdecode, ?_⟩
    obtain ⟨iss, hiss, h⟩ := bind_eq_ok.mp h
    split_ifs at h with hstr
    · cases h
    obtain ⟨sub, hsub, h⟩ := bind_eq_ok.mp h
    have hours := Json.eq_str_of_isStr (Bool.eq_true_of_not_eq_false hstr)
    unfold userOfSub at h
    split at h
    · rename_i name
      obtain ⟨hlisted, rfl⟩ := lists_of_getItem (Except.ok.inj h)
      exact ⟨hours ▸ hiss, hsub, hlisted⟩
    · split_ifs at h
      cases h

lemma userOfToken_some {token : Option String} {now : ℚ}
    (h : userOfToken am jwt token now = .ok (some user)) :
    ∃ t, token = some t ∧ am.verifyJwt jwt t now = .ok (some user) := by
  unfold userOfToken at h
  split at h
  · cases h
  · rename_i t ht
    exact ⟨t, (Option.filter_eq_some_iff.mp ht).1, h⟩

/-- The caller is named by one of its three credentials. -/
theorem getFlUser_some {creds : Credentials} {env : AuthEnv}
    (h : getFlUser am host jwt creds env = .ok (some user)) :
    (∃ t, creds.bearer = some t ∧ am.verifyJwt jwt t env.bearerAt = .ok (some user)) ∨
      (∃ t, creds.flSession = some t ∧ am.verifyJwt jwt t env.sessionAt = .ok (some user)) ∨
      ∃ key, creds.apiKey = some key ∧ am.authenticateApiKey host key = .ok (some user) := by
  obtain ⟨byBearer, hbearer, h⟩ := bind_eq_ok.mp h
  split_ifs at h with hsome
  · cases h
    obtain ⟨t, ht, hverify⟩ := userOfToken_some hbearer
    exact Or.inl ⟨t, ht, hverify⟩
  · obtain ⟨bySession, hsession, h⟩ := bind_eq_ok.mp h
    split_ifs at h with hsome'
    · cases h
      obtain ⟨t, ht, hverify⟩ := userOfToken_some hsession
      exact Or.inr (Or.inl ⟨t, ht, hverify⟩)
    · split at h
      · cases h
      · rename_i key hkey
        exact Or.inr (Or.inr ⟨key, (Option.filter_eq_some_iff.mp hkey).1, h⟩)

end FLAuthManager

end FlCoordinator
