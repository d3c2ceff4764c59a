import FlCoordinator.Security
import FlCoordinator.System

/-!
# The operator console

Login, logout and pages of `coordinator/dashboard.py`, the buttons of its templates, and the
coordinator as an event machine whose operators present credentials.
-/

namespace FlCoordinator

open Lib Handler

/-- What an operator deployment adds to the application. -/
structure Console where
  app : App
  auth : FLAuthManager
  jwt : Jwt

/-! ### Sessions -/

/-- `resp.set_cookie`. -/
structure SessionCookie where
  value : String
  httponly : Bool
  secure : Bool
  samesite : String
  maxAge : ℤ
  path : String
  deriving DecidableEq

/-- A `RedirectResponse`. -/
structure LoginResponse where
  location : String
  cookie : Option SessionCookie
  deriving DecidableEq

structure LoginEnv where
  iatAt : ℚ
  expAt : ℚ
  loggedAt : Decimal

section Sessions

variable (c : Console)

def sessionToken (user : FLUser) (env : LoginEnv) : String :=
  c.auth.createJwt c.jwt user 8 env.iatAt env.expAt

/-- `POST /login`. -/
def login (username apiKey : String) (env : LoginEnv) : Api LoginResponse := do
  let found ← attempt (c.auth.authenticateApiKey c.app.host apiKey) .uncaught
  match found.filter (fun u => u.username = username) with
  | none => pure { location := "/login?error=Invalid+credentials", cookie := none }
  | some user =>
    Api.log c.app env.loggedAt "fl.operator.login" user.username user.role.value (.obj [])
    pure
      { location := "/dashboard"
        cookie := some
          { value := sessionToken c user.toFLUser env
            httponly := true
            secure := false
            samesite := "lax"
            maxAge := 8 * 3600
            path := "/" } }

structure LogoutEnv where
  now : ℚ
  loggedAt : Decimal

/-- `current_user_from_cookie`. -/
def currentUserFromCookie (token : Option String) (now : ℚ) : Except PyErr (Option RosterUser) :=
  userOfToken c.auth c.jwt token now

/-- `POST /logout`; the response deletes the cookie of the browser. -/
def logout (flSession : Option String) (env : LogoutEnv) : Api LoginResponse := do
  let found ← attempt (currentUserFromCookie c flSession env.now) .uncaught
  match found with
  | none => pure { location := "/login", cookie := none }
  | some user => do
    Api.log c.app env.loggedAt "fl.operator.logout" user.username "" (.obj [])
    pure { location := "/login", cookie := none }

end Sessions

/-! ### Pages -/

/-- The permissions that templates ask for. -/
def pagePermissions : List String :=
  ["fl_enroll_org", "fl_block_org", "fl_revoke_org", "fl_start_round", "fl_aggregate_round",
    "fl_view_audit"]

/-- `_perms`. -/
def perms (user : FLUser) : List (String × Bool) :=
  pagePermissions.map fun p => (p, decide (p ∈ user.role.permissions))

/-- What a template is rendered with. -/
structure Page where
  template : String
  username : String
  role : String
  perms : List (String × Bool)
  active : String
  deriving DecidableEq

/-- `perms.p` in a template. -/
def Page.flag (page : Page) (p : String) : Bool := (getItem p page.perms).getD false

section Pages

variable (c : Console)

/-- `require_user`: a redirect to the login page. -/
def requireUser (token : Option String) (now : ℚ) : Api FLUser := do
  let found ← attempt (currentUserFromCookie c token now) .uncaught
  let user ← orRaise found (.http 303 "Not authenticated")
  pure user.toFLUser

/-- What the page routes share. -/
def renderPage (template active : String) (token : Option String) (now : ℚ) : Api Page := do
  let user ← requireUser c token now
  pure
    { template
      username := user.username
      role := user.role.value
      perms := perms user
      active }

def homePage : Option String → ℚ → Api Page := renderPage c "home.html" "home"

def orgsPage : Option String → ℚ → Api Page := renderPage c "orgs.html" "orgs"

def roundsPage : Option String → ℚ → Api Page := renderPage c "rounds.html" "rounds"

def roundDetailPage : Option String → ℚ → Api Page := renderPage c "round_detail.html" "rounds"

def modelsPage : Option String → ℚ → Api Page := renderPage c "models.html" "models"

def auditPage : Option String → ℚ → Api Page := renderPage c "audit.html" "audit"

end Pages

/-! ### Buttons -/

/-- What an operator can click on. -/
inductive Button
  | enroll
  | mintToken
  | block
  | unblock
  | approveRemoval
  | revoke
  | startRound
  | aggregate
  | publish
  | rollback
  deriving DecidableEq, Repr

/-- The buttons of `orgs.html` in the row of an org with this status. -/
def orgButtons (page : Page) (status : OrgStatus) : List Button :=
  (if page.flag "fl_block_org" then
    (if status = .active then [.block] else []) ++ (if status = .blocked then [.unblock] else [])
  else []) ++
  (if page.flag "fl_revoke_org" then
    (if status = .leavePending then [.approveRemoval] else []) ++
      (if status ≠ .revoked then [.revoke] else [])
  else [])

/-- The forms above the table of `orgs.html`. -/
def enrollButtons (page : Page) : List Button :=
  if page.flag "fl_enroll_org" then [.enroll, .mintToken] else []

/-- The form of `rounds.html`. -/
def roundsButtons (page : Page) : List Button :=
  if page.flag "fl_start_round" then [.startRound] else []

/-- The buttons of `round_detail.html`. -/
def roundButtons (page : Page) (status : RoundStatus) : List Button :=
  if page.flag "fl_aggregate_round" then
    (if status = .running then [.aggregate] else []) ++
      (if status = .aggregated then [.publish] else [])
  else []

/-- The buttons of `models.html` in the row of a version with this status. -/
def modelButtons (page : Page) (status : ModelStatus) : List Button :=
  if page.flag "fl_aggregate_round" then (if status = .archived then [.rollback] else []) else []

/-! ### Requests with credentials -/

/-- The permission that the endpoint of an event requires of an operator. -/
def Event.permission : Event → Option String
  | .enroll .. => some "fl_enroll_org"
  | .mintToken .. => some "fl_enroll_org"
  | .redeemToken .. => none
  | .block .. => some "fl_block_org"
  | .unblock .. => some "fl_unblock_org"
  | .revoke .. => some "fl_revoke_org"
  | .leaveRequest .. => none
  | .approveRemoval .. => some "fl_revoke_org"
  | .startRound .. => some "fl_start_round"
  | .challenge .. => none
  | .contribute _ => none
  | .resume .. => none
  | .aggregate .. => some "fl_aggregate_round"
  | .publish .. => some "fl_aggregate_round"
  | .rollback .. => some "fl_aggregate_round"

/-- The event with the operator that the credentials name. -/
def Event.withUser (user : Option FLUser) : Event → Event
  | .enroll _ body env => .enroll user body env
  | .mintToken _ body env => .mintToken user body env
  | .block _ orgId t => .block user orgId t
  | .unblock _ orgId t => .unblock user orgId t
  | .revoke _ orgId crl t => .revoke user orgId crl t
  | .approveRemoval _ orgId env => .approveRemoval user orgId env
  | .startRound _ body env => .startRound user body env
  | .aggregate _ roundId env => .aggregate user roundId env
  | .publish _ roundId env => .publish user roundId env
  | .rollback _ versionId env => .rollback user versionId env
  | e => e

/-- A request as the coordinator receives it. The operator inside `e` is not looked at. -/
inductive ConsoleEvent
  | login (username apiKey : String) (env : LoginEnv)
  | logout (flSession : Option String) (env : LogoutEnv)
  | request (creds : Credentials) (env : AuthEnv) (e : Event)

namespace Console

variable (c : Console)

/-- The event that a request amounts to; none when its credentials raise. -/
def resolve (creds : Credentials) (env : AuthEnv) (e : Event) : Option Event :=
  match e.permission with
  | none => some e
  | some _ =>
    match getFlUser c.auth c.app.host c.jwt creds env with
    | .ok user => some (e.withUser (user.map RosterUser.toFLUser))
    | .error _ => none

def next (e : ConsoleEvent) (s : Sys) : Sys :=
  match e with
  | .login username apiKey env => s.run (login c username apiKey env)
  | .logout flSession env => s.run (logout c flSession env)
  | .request creds env e =>
    match c.resolve creds env e with
    | some e' => FlCoordinator.next c.app e' s
    | none => s

/-- The state after a run from a fresh installation. -/
def after (es : List ConsoleEvent) : Sys := Lib.run c.next (init c.app) es

/-- The steps of such a run. -/
def steps (es : List ConsoleEvent) : List (Sys × ConsoleEvent) := visits c.next (init c.app) es

end Console

end FlCoordinator
