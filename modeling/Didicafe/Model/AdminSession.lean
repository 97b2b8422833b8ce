/-
The admin sessions (`services/admin_session.rs`), the extractors that consult them (`web/extractors.rs`), and the
requests that use them: what `manage_submit` and `settings_submit` do before they act on a form, logins, logouts and the
other admin pages. Each lock of the store is held for one operation.
-/
import Didicafe.Lib.Effect
import Didicafe.Lib.HashMap
import Didicafe.Model.RateLimit

namespace Didicafe

open Effect

/-! ## The store -/

structure SessionData where
  expiresAt : Nat
  csrfToken : String
deriving DecidableEq

structure AdminSessionStore where
  sessions : HashMap String SessionData
  timeout : Nat

def sessionIdLen : Nat := 32

def sessionCharset : List Char := "ABCDEFGHIJKLMNOPQRSTUVWXYZabcdefghijklmnopqrstuvwxyz0123456789".toList

/-- `generate_session_token`, for its random draws. -/
def generateSessionToken (len : Nat) (draws : Nat → Fin sessionCharset.length) : String :=
  String.ofList ((List.range len).map fun i => sessionCharset.get (draws i))

namespace AdminSessionStore

def new (timeoutSeconds : UInt64) : AdminSessionStore := ⟨∅, fromSecs timeoutSeconds⟩

/-- The CSRF token of a session; the empty text when there is no such session. -/
def csrfToken (s : AdminSessionStore) (sessionId : String) : String :=
  ((s.sessions.lookup sessionId).map (·.csrfToken)).getD ""

/-- Whether the session exists and has not expired; an expired one is removed. -/
def validate (s : AdminSessionStore) (now : Nat) (sessionId : String) : Bool × AdminSessionStore :=
  match s.sessions.lookup sessionId with
  | some data => if now < data.expiresAt then (true, s) else (false, { s with sessions := s.sessions.erase sessionId })
  | none => (false, s)

def insert (s : AdminSessionStore) (sessionId : String) (data : SessionData) : AdminSessionStore :=
  { s with sessions := s.sessions.insert sessionId data }

def remove (s : AdminSessionStore) (sessionId : String) : AdminSessionStore :=
  { s with sessions := s.sessions.erase sessionId }

end AdminSessionStore

inductive StoreOp where
  | now
  | insert (sessionId : String) (data : SessionData)
  | csrfToken (sessionId : String)
  | validate (sessionId : String)
  | remove (sessionId : String)
deriving DecidableEq

abbrev StoreOp.Out : StoreOp → Type
  | .now => Nat
  | .csrfToken _ => String
  | .validate _ => Bool
  | .insert .. | .remove _ => Unit

/-- The monotonic clock and the store. -/
structure Desk where
  clock : Nat
  store : AdminSessionStore

/-- One operation; the validation reads the clock itself. -/
def Desk.exec : Handler StoreOp StoreOp.Out Desk
  | .now, d => (d.clock, d)
  | .insert sessionId data, d => ((), { d with store := d.store.insert sessionId data })
  | .csrfToken sessionId, d => (d.store.csrfToken sessionId, d)
  | .validate sessionId, d =>
    ((d.store.validate d.clock sessionId).1, { d with store := (d.store.validate d.clock sessionId).2 })
  | .remove sessionId, d => ((), { d with store := d.store.remove sessionId })

/-! ## Requests -/

inductive Rejection where
  | unauthorized (apiPath : Bool)
  | badRequest (key : String)
  | panic (text : String)
deriving DecidableEq

/-- A request with the cookie `didicafe_admin` it carries. -/
abbrev Web := Fallible Rejection StoreOp StoreOp.Out

def store (op : StoreOp) : Web op.Out := ExceptT.lift (Prog.perform op)

/-- `AdminSession::from_request_parts`. -/
def adminSession (apiPath : Bool) : (cookie : Option String) → Web Unit
  | none => throw (.unauthorized apiPath)
  | some sessionId => do
    if ← store (.validate sessionId) then pure () else throw (.unauthorized apiPath)

/-- `CsrfToken::from_request_parts`. -/
def csrfToken (apiPath : Bool) : (cookie : Option String) → Web String
  | none => throw (.unauthorized apiPath)
  | some sessionId => do
    if ← store (.validate sessionId) then store (.csrfToken sessionId) else throw (.unauthorized apiPath)

/-- The extractors and the comparison of `manage_submit` and `settings_submit`; the form is acted on when this
succeeds. -/
def checkForm (cookie : Option String) (submitted : String) : Web Unit := do
  adminSession false cookie
  let csrf ← csrfToken false cookie
  if submitted = csrf then pure () else throw (.badRequest "admin.error.csrf")

/-- A page with a form. -/
def formPage (cookie : Option String) : Web Unit := do
  adminSession false cookie
  let _ ← csrfToken false cookie

/-- `AdminSessionStore::create`. -/
def createAdminSession (timeout : Nat) (idDraws csrfDraws : Nat → Fin sessionCharset.length) : Web String := do
  let sessionId := generateSessionToken sessionIdLen idDraws
  let csrf := generateSessionToken sessionIdLen csrfDraws
  let now ← store .now
  match checkedAdd now timeout with
  | none => throw (.panic "overflow when adding duration to instant")
  | some expiresAt =>
    store (.insert sessionId ⟨expiresAt, csrf⟩)
    pure sessionId

def removeCookie : (cookie : Option String) → Web Unit
  | none => pure ()
  | some sessionId => store (.remove sessionId)

/-- What `login_submit` does to the store once the credentials are right. -/
def loginSubmit (timeout : Nat) (cookie : Option String) (idDraws csrfDraws : Nat → Fin sessionCharset.length) :
    Web Unit := do
  removeCookie cookie
  let _ ← createAdminSession timeout idDraws csrfDraws

/-- The requests to the admin pages and to the REST API. -/
inductive Caller where
  | form (cookie : Option String) (submitted : String)
  | page (cookie : Option String)
  | api (cookie : Option String)
  | login (cookie : Option String) (idDraws csrfDraws : Nat → Fin sessionCharset.length)
  | logout (cookie : Option String)

def Caller.program (timeout : Nat) : Caller → Web Unit
  | .form cookie submitted => checkForm cookie submitted
  | .page cookie => formPage cookie
  | .api cookie => adminSession true cookie
  | .login cookie idDraws csrfDraws => loginSubmit timeout cookie idDraws csrfDraws
  | .logout cookie => removeCookie cookie

end Didicafe
