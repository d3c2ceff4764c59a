import FlCoordinator.Audit
import FlCoordinator.Ca
import FlCoordinator.Store
import FlCoordinator.Lib.Handler
import FlCoordinator.Lib.Python

/-!
# The application state

`App` is what `build_app` fixes at startup, `World` what the handlers change. A handler runs
on a world and ends with a response or a `Failure`.
-/

namespace FlCoordinator

open Lib

/-! ### Operators -/

/-- Federation-only roles. -/
inductive FLRole
  | viewer
  | operator
  | admin
  deriving DecidableEq, Repr

def FLRole.value : FLRole → String
  | .viewer => "fl_viewer"
  | .operator => "fl_operator"
  | .admin => "fl_admin"

/-- `FL_PERMISSIONS`. -/
def FLRole.permissions : FLRole → List String
  | .viewer => ["fl_view_orgs", "fl_view_rounds", "fl_view_audit"]
  | .operator =>
    ["fl_view_orgs", "fl_view_rounds", "fl_view_audit", "fl_start_round", "fl_aggregate_round",
      "fl_block_org", "fl_unblock_org"]
  | .admin =>
    ["fl_view_orgs", "fl_view_rounds", "fl_view_audit", "fl_start_round", "fl_aggregate_round",
      "fl_block_org", "fl_unblock_org", "fl_enroll_org", "fl_revoke_org", "fl_configure_round",
      "fl_manage_users"]

structure FLUser where
  username : String
  role : FLRole
  deriving DecidableEq

/-! ### State -/

/-- The settings of the trust manager that deployments change. -/
structure TrustSettings where
  validationData : Bool
  maxNumExamples : ℤ

structure App where
  host : Host
  python : Python
  caPriv : Option CaKey
  caCert : Option Certificate
  coordPriv : Option Bytes
  caDir : String
  modelDir : String
  trust : Option TrustSettings
  requireMtls : Bool
  devHeaderAllowed : Bool
  trustedProxy : Bool
  maxModelBytes : ℤ
  observationHours : Decimal

structure World where
  store : Store
  audit : AuditTrail
  crl : Option Crl
  files : String → Option Bytes

/-- How a request fails: an `HTTPException`, or an exception that nothing catches. -/
inductive Failure
  | http (status : ℕ) (detail : String)
  | uncaught (e : PyErr)
  deriving DecidableEq, Repr

abbrev Api := Handler World Failure

/-- The CA, when both its key and its certificate are loaded. -/
def App.ca (app : App) : Option (CaKey × Certificate) :=
  match app.caPriv, app.caCert with
  | some key, some cert => some (key, cert)
  | _, _ => none

def intStr (n : ℤ) : String := String.ofList (Json.intText n)

/-- `h[:16]`, the part of a hash that texts and paths show. -/
def hashPrefix (h : String) : String := String.ofList (h.toList.take 16)

namespace World

def setStore (w : World) (s : Store) : World := { w with store := s }

def setFile (w : World) (path : String) (content : Bytes) : World :=
  { w with files := Function.update w.files path (some content) }

def logAudit (w : World) (app : App) (timestamp : Decimal) (action actor target : String)
    (details : Json) : World :=
  { w with audit := w.audit.log app.host timestamp action actor target details }

end World

/-! ### Statements of handlers -/

namespace Api

def query {α : Type} (f : Store → α) : Api α := Handler.read fun w => f w.store

def execute (f : Store → Store) : Api Unit := Handler.write fun w => w.setStore (f w.store)

def insert {α : Type} (f : Store → α × Store) : Api α :=
  Handler.exec fun w => ((f w.store).1, w.setStore (f w.store).2)

/-- A statement that may raise and then changes nothing. -/
def tryExecute (f : Store → Except PyErr Store) (fail : PyErr → Failure) : Api Unit :=
  Handler.tryExec fun w =>
    match f w.store with
    | .ok s => (.ok (), w.setStore s)
    | .error e => (.error (fail e), w)

def log (app : App) (timestamp : Decimal) (action actor target : String) (details : Json) :
    Api Unit :=
  Handler.write fun w => w.logAudit app timestamp action actor target details

def writeFile (path : String) (content : Bytes) : Api Unit :=
  Handler.write fun w => w.setFile path content

end Api

/-- `Depends(fl_require(permission))`: credentials that name an operator whose role has the
permission. -/
def flRequire (user : Option FLUser) (permission : String) : Api FLUser :=
  match user with
  | none => Handler.raise (.http 401 "FL coordinator credentials required")
  | some u =>
    if permission ∈ u.role.permissions then pure u
    else Handler.raise
      (.http 403 s!"Permission '{permission}' required (your FL role: {u.role.value})")

/-- The credentials name an operator whose role has the permission. -/
def Permitted (user : Option FLUser) (permission : String) : Prop :=
  ∃ u, user = some u ∧ permission ∈ u.role.permissions

section Rules

open Handler

variable {α β : Type} {Q : Except Failure β → World → Prop} {w : World}

lemma wp_query_bind {g : Store → α} {f : α → Api β} (h : (f (g w.store)).wp Q w) :
    (Api.query g >>= f).wp Q w := h

lemma wp_execute_bind {g : Store → Store} {f : Unit → Api β}
    (h : (f ()).wp Q (w.setStore (g w.store))) : (Api.execute g >>= f).wp Q w := h

lemma wp_insert_bind {g : Store → α × Store} {f : α → Api β}
    (h : (f (g w.store).1).wp Q (w.setStore (g w.store).2)) : (Api.insert g >>= f).wp Q w := h

lemma wp_tryExecute_bind {g : Store → Except PyErr Store} {fail : PyErr → Failure}
    {f : Unit → Api β} (hno : ∀ e, g w.store = .error e → Q (.error (fail e)) w)
    (hyes : ∀ s, g w.store = .ok s → (f ()).wp Q (w.setStore s)) :
    (Api.tryExecute g fail >>= f).wp Q w := by
  refine wp_tryExec_bind (fun e t h => ?_) fun a t h => ?_
  · cases hg : g w.store with
    | error d =>
      rw [hg] at h
      cases h
      exact hno d hg
    | ok s =>
      rw [hg] at h
      cases h
  · cases hg : g w.store with
    | error d =>
      rw [hg] at h
      cases h
    | ok s =>
      rw [hg] at h
      cases h
      exact hyes s hg

lemma wp_log_bind {app : App} {t : Decimal} {a b c : String} {d : Json} {f : Unit → Api β}
    (h : (f ()).wp Q (w.logAudit app t a b c d)) : (Api.log app t a b c d >>= f).wp Q w := h

lemma wp_writeFile_bind {p : String} {b : Bytes} {f : Unit → Api β}
    (h : (f ()).wp Q (w.setFile p b)) : (Api.writeFile p b >>= f).wp Q w := h

lemma wp_flRequire_bind {user : Option FLUser} {permission : String} {f : FLUser → Api β}
    (hno : ¬Permitted user permission → ∀ e, Q (.error e) w)
    (hyes : ∀ u, user = some u → permission ∈ u.role.permissions → (f u).wp Q w) :
    (flRequire user permission >>= f).wp Q w := by
  rw [wp_bind]
  cases user with
  | none => exact hno (by rintro ⟨u, hu, -⟩; cases hu) _
  | some u =>
    simp only [flRequire]
    by_cases h : permission ∈ u.role.permissions
    · rw [if_pos h]
      exact hyes u rfl h
    · rw [if_neg h]
      exact hno (by rintro ⟨u, hu, hp⟩; cases hu; exact h hp) _

end Rules

end FlCoordinator
