/-
The state that the handlers share (`AppState` of `main.rs`), and the handlers that need all of it: the pages and the
forms of the portal and of the login (`web/portal.rs`, `web/admin.rs`), and what an admin request has to pass in front
of its handler. What reads one part of the state is a program over the operations of that part.
-/
import Didicafe.Lib.Journal
import Didicafe.Model.Admin
import Didicafe.Model.Clients
import Didicafe.Model.PortalCsrf

namespace Didicafe

open Effect

/-! ## The state -/

/-- The two forms that anyone can post: the code form of the portal, and the login form. Each has a store of form tokens
and a rate limiter. -/
inductive Door where
  | portal
  | login
deriving DecidableEq

/-- The monotonic clock, the database and the firewall, and what is kept in memory. -/
structure AppState where
  clock : Nat
  world : World
  adminSessions : AdminSessionStore
  rateLimiter : RateLimiter
  adminRateLimiter : RateLimiter
  portalCsrfStore : PortalCsrfStore
  loginCsrfStore : PortalCsrfStore

namespace AppState

/-- The state that `main` starts the listeners with, for a database and a firewall. -/
def new (rateLimit : RateLimitConfig) (sessionTimeoutSeconds : UInt64) (clock : Nat) (world : World) : AppState where
  clock := clock
  world := world
  adminSessions := .new sessionTimeoutSeconds
  rateLimiter := .new rateLimit
  adminRateLimiter := .new rateLimit
  portalCsrfStore := ∅
  loginCsrfStore := ∅

def worldPart : Effect.Part AppState World where
  get s := s.world
  put s w := { s with world := w }
  get_put _ _ := rfl
  put_get _ := rfl
  put_put _ _ _ := rfl

def sessionsPart : Effect.Part AppState Desk where
  get s := ⟨s.clock, s.adminSessions⟩
  put s d := { s with clock := d.clock, adminSessions := d.store }
  get_put _ _ := rfl
  put_get _ := rfl
  put_put _ _ _ := rfl

def limiterPart : Door → Effect.Part AppState Gate
  | .portal => {
    get s := ⟨s.clock, s.rateLimiter⟩
    put s g := { s with clock := g.clock, rateLimiter := g.limiter }
    get_put _ _ := rfl
    put_get _ := rfl
    put_put _ _ _ := rfl }
  | .login => {
    get s := ⟨s.clock, s.adminRateLimiter⟩
    put s g := { s with clock := g.clock, adminRateLimiter := g.limiter }
    get_put _ _ := rfl
    put_get _ := rfl
    put_put _ _ _ := rfl }

def csrfPart : Door → Effect.Part AppState CsrfDesk
  | .portal => {
    get s := ⟨s.clock, s.portalCsrfStore⟩
    put s d := { s with clock := d.clock, portalCsrfStore := d.tokens }
    get_put _ _ := rfl
    put_get _ := rfl
    put_put _ _ _ := rfl }
  | .login => {
    get s := ⟨s.clock, s.loginCsrfStore⟩
    put s d := { s with clock := d.clock, loginCsrfStore := d.tokens }
    get_put _ _ := rfl
    put_get _ := rfl
    put_put _ _ _ := rfl }

end AppState

/-! ## Operations -/

/-- An operation on a part of the state, or on what lies outside of the daemon: the ARP table, the two commands that
print neighbours, and the verification of a password, which is a task of its own. -/
inductive Access where
  | world (op : Op)
  | sessions (op : StoreOp)
  | limiter (door : Door) (op : LimiterOp)
  | csrf (door : Door) (op : CsrfOp)
  | procNetArp
  | ipNeigh (ip : String)
  | arpCommand
  | verifyPassword (password hash : String)
deriving DecidableEq

abbrev Access.Out : Access → Type
  | .world op => op.Out
  | .sessions op => op.Out
  | .limiter _ op => op.Out
  | .csrf _ op => op.Out
  | .procNetArp | .ipNeigh _ | .arpCommand => Option String
  | .verifyPassword .. => Bool

/-- What lies outside of the daemon, at one moment: with which error a command or a statement fails, what the neighbour
tables say, and which passwords a hash is one of. -/
structure Surroundings where
  fault : Op → Option Err
  procNetArp : Option String
  ipNeigh : String → Option String
  arpCommand : Option String
  verifies : (password hash : String) → Bool

def AppState.exec (env : Surroundings) : Effect.Handler Access Access.Out AppState
  | .world op, s =>
    let (r, w) := failing env.fault op (worldPart.get s)
    (r, worldPart.put s w)
  | .sessions op, s =>
    let (r, d) := Desk.exec op (sessionsPart.get s)
    (r, sessionsPart.put s d)
  | .limiter door op, s =>
    let (r, g) := Gate.exec op ((limiterPart door).get s)
    (r, (limiterPart door).put s g)
  | .csrf door op, s =>
    let (r, d) := CsrfDesk.exec op ((csrfPart door).get s)
    (r, (csrfPart door).put s d)
  | .procNetArp, s => (env.procNetArp, s)
  | .ipNeigh ip, s => (env.ipNeigh ip, s)
  | .arpCommand, s => (env.arpCommand, s)
  | .verifyPassword password hash, s => (env.verifies password hash, s)

abbrev Front := Prog Access Access.Out

namespace Front

variable {α : Type}

def world (p : Prog Op Op.Out α) : Front α := p.embed .world fun _ r => r

def sessions (x : Web α) : Front (Except Rejection α) := x.run.embed .sessions fun _ r => r

def limiter (door : Door) (p : Prog LimiterOp LimiterOp.Out α) : Front α := p.embed (.limiter door) fun _ r => r

def csrf (door : Door) (p : Prog CsrfOp CsrfOp.Out α) : Front α := p.embed (.csrf door) fun _ r => r

end Front

/-! ## Requests and answers -/

/-- The parts of the configuration that these handlers read; lower-casing and upper-casing are parameters. -/
structure FrontConfig where
  token : TokenConfig
  portal : PortalSection
  rateLimit : RateLimitConfig
  adminUsername : String
  passwordHash : String
  sessionTimeoutSeconds : UInt64
  tlsEnabled : Bool
  upper : CaseTable
  lower : String → String

structure AuthForm where
  token : String
  csrfToken : String
deriving DecidableEq

structure LoginForm where
  username : String
  password : String
  csrfToken : String
deriving DecidableEq

/-- An answer, with what its page shows besides the texts of the template: a status, the `Retry-After` header, an error,
the token of the form, and the portal section. -/
inductive Answer where
  | redirect (location : String) (setCookie : Option String)
  | portalPage (error : Option String) (csrfToken : String) (portal : PortalSection)
  | loginPage (status : Nat) (retryAfter : Option Nat) (error : Option String) (csrfToken : String)
    (portal : PortalSection)
  | rateLimited (retryAfter : Option Nat)
  | acted
  | failed (e : AppError)
  | rejected (r : Rejection)
  | panic (e : Err)
deriving DecidableEq

/-- Random draws: those of a form token, and those of the two texts of a session. -/
structure FrontDraws where
  csrf : Nat → Fin sessionCharset.length
  sessionId : Nat → Fin sessionCharset.length
  sessionCsrf : Nat → Fin sessionCharset.length

/-- The token that a call has answered. -/
def CsrfAnswer.text : CsrfAnswer → String
  | .token t => t
  | _ => ""

def CsrfAnswer.isValid : CsrfAnswer → Bool
  | .valid ok => ok
  | _ => false

/-! ## Handlers -/

namespace Front

variable (c : FrontConfig)

/-- `lookup_mac` of a release build. -/
def lookupMac (ip : IpAddr) : Front (Option String) := do
  match lookupProcNetArp c.lower (← Prog.perform .procNetArp) ip.display with
  | some mac => return some mac
  | none =>
    match lookupIpNeigh c.lower (← Prog.perform (.ipNeigh ip.display)) with
    | some mac => return some mac
    | none => return lookupArpCommand c.lower (← Prog.perform .arpCommand) ip.display

/-- `ClientInfo::from_request_parts`, the MAC address of the client. -/
def clientInfo (ip : IpAddr) : Front (Except AppError String) := do
  return validateMacOrErr (← lookupMac c ip)

def generate (door : Door) (key : String) (draws : FrontDraws) : Front String := do
  return (← csrf door (csrfGenerate c.lower key draws.csrf)).text

def getOrGenerate (door : Door) (key : String) (draws : FrontDraws) : Front String := do
  return (← csrf door (csrfGetOrGenerate c.lower key draws.csrf)).text

def validate (door : Door) (key submitted : String) : Front Bool := do
  return (← csrf door (csrfValidate c.lower key submitted)).isValid

/-! ### The portal -/

/-- `GET /portal`. -/
def portalPage (ip : IpAddr) (draws : FrontDraws) : Front Answer := do
  match ← clientInfo c ip with
  | .error e => return .failed e
  | .ok mac =>
    let csrfToken ← getOrGenerate c .portal mac draws
    return .portalPage none csrfToken (← world (portalConfigFromDb c.portal))

/-- The portal page with an error; the form gets a new token. -/
def portalError (error mac : String) (draws : FrontDraws) : Front Answer := do
  let csrfToken ← generate c .portal mac draws
  return .portalPage (some error) csrfToken (← world (portalConfigFromDb c.portal))

/-- What `portal_auth` does with the code of an attempt that the limiter allows. -/
def enterCode (ip : IpAddr) (code mac : String) (draws : FrontDraws) : Front Answer := do
  match validateTokenFormat c.token code with
  | .error e => return .panic e
  | .ok (.error _) => portalError c "portal.error.invalid" mac draws
  | .ok (.ok ()) =>
    match ← world (Didicafe.portalAuth code mac ip.display) with
    | .internal e => return .failed (.internal e)
    | .success => return .redirect "/portal/success" none
    | .error key => portalError c key mac draws

/-- `POST /portal/auth`. -/
def portalAuth (ip : IpAddr) (form : AuthForm) (draws : FrontDraws) : Front Answer := do
  match ← clientInfo c ip with
  | .error e => return .failed e
  | .ok mac =>
    if (← validate c .portal mac form.csrfToken) = false then portalError c "portal.error.csrf" mac draws
    else
      match ← limiter .portal (checkAndRecord ip) with
      | .error e => return .panic e
      | .ok .throttled => return .rateLimited none
      | .ok (.banned retryAfterSeconds) => return .rateLimited (some retryAfterSeconds)
      | .ok .allowed => enterCode c ip (normalizeCode c.upper form.token) mac draws

/-! ### Logging in and out -/

/-- `GET /admin/login`. -/
def loginPage (ip : IpAddr) (draws : FrontDraws) : Front Answer := do
  let csrfToken ← getOrGenerate c .login ip.display draws
  return .loginPage 200 none none csrfToken (← world (portalConfigFromDb c.portal))

/-- A login page with an error; the form gets a new token. -/
def loginError (status : Nat) (retryAfter : Option Nat) (error : String) (ip : IpAddr) (portal : PortalSection)
    (draws : FrontDraws) : Front Answer := do
  let csrfToken ← generate c .login ip.display draws
  return .loginPage status retryAfter (some error) csrfToken portal

def maxUsernameLen : Nat := 256

def maxPasswordLen : Nat := 1024

/-- The new session of the manager, and the redirect that carries its cookie. -/
def enterSession (draws : FrontDraws) : Front Answer := do
  match ← sessions (createAdminSession (fromSecs c.sessionTimeoutSeconds) draws.sessionId draws.sessionCsrf) with
  | .error r => return .rejected r
  | .ok sessionId => return .redirect "/admin" (some (sessionCookie sessionId c.tlsEnabled))

/-- What `login_submit` does once the credentials are right. -/
def logIn (ip : IpAddr) (header : Option String) (username : String) (draws : FrontDraws) : Front Answer := do
  let _ ← world (sql (.auditLog username "login" none none none)).run
  let _ ← sessions (removeCookie (extractCookie header adminCookieName))
  match ← lookupMac c ip with
  | some mac =>
    let _ ← world (authorizeClient mac ip.display adminAuthorizeTimeoutSecs).run
  | none => pure ()
  enterSession c draws

/-- `POST /admin/login`. -/
def loginSubmit (ip : IpAddr) (header : Option String) (form : LoginForm) (draws : FrontDraws) : Front Answer := do
  let portal ← world (portalConfigFromDb c.portal)
  if (← validate c .login ip.display form.csrfToken) = false then
    loginError c 200 none "admin.login.error.csrf" ip portal draws
  else
    match ← limiter .login (checkAndRecord ip) with
    | .error e => return .panic e
    | .ok (.banned retryAfterSeconds) =>
      loginError c 429 (some retryAfterSeconds) "admin.login.error.rate_limit" ip portal draws
    | .ok .throttled => loginError c 429 none "admin.login.error.rate_limit" ip portal draws
    | .ok .allowed =>
      if form.username.utf8ByteSize > maxUsernameLen ∨ form.password.utf8ByteSize > maxPasswordLen then
        loginError c 200 none "admin.login.error" ip portal draws
      else
        -- the password is verified whatever the username is
        let passwordOk ← Prog.perform (.verifyPassword form.password c.passwordHash)
        if form.username = c.adminUsername ∧ passwordOk = true then logIn c ip header form.username draws
        else
          -- the username is no longer than what is logged of it
          let _ ← world (sql (.auditLog form.username "login_failed" none none none)).run
          loginError c 200 none "admin.login.error" ip portal draws

/-- `POST /admin/logout`. -/
def logout (header : Option String) : Front Answer := do
  let _ ← sessions (removeCookie (extractCookie header adminCookieName))
  return .redirect "/admin/login" (some (clearSessionCookie c.tlsEnabled))

/-- `GET /admin/`. -/
def redirectToLogin (header : Option String) : Front Answer := do
  match ← sessions (adminSession false (extractCookie header adminCookieName)) with
  | .ok () => return .redirect "/admin" none
  | .error _ => return .redirect "/admin/login" none

/-! ### Behind the login -/

/-- The handler also takes the form token of the session: the pages with a form do, the REST API does not. -/
def takesCsrf (a : AdminAction c.token) : Bool := !a.apiPath

/-- An admin request: the extractors in front of the handler, and the handler. -/
def admin (header : Option String) (a : AdminAction c.token) : Front Answer := do
  let cookie := extractCookie header adminCookieName
  match ← sessions (adminSession a.apiPath cookie) with
  | .error r => return .rejected r
  | .ok () =>
    match ← sessions (if takesCsrf c a then csrfToken a.apiPath cookie else pure "") with
    | .error r => return .rejected r
    | .ok csrf =>
      match ← world (a.handler c.adminUsername csrf).run with
      | .error e => return .failed e
      | .ok () => return .acted

end Front

/-- A request, with the address it comes from and the cookie header it carries. -/
inductive FrontCall (c : FrontConfig) where
  | portalPage (ip : IpAddr) (draws : FrontDraws)
  | portalAuth (ip : IpAddr) (form : AuthForm) (draws : FrontDraws)
  | loginPage (ip : IpAddr) (draws : FrontDraws)
  | loginSubmit (ip : IpAddr) (header : Option String) (form : LoginForm) (draws : FrontDraws)
  | logout (header : Option String)
  | redirectToLogin (header : Option String)
  | admin (header : Option String) (a : AdminAction c.token)

def FrontCall.program {c : FrontConfig} : FrontCall c → Front Answer
  | .portalPage ip draws => Front.portalPage c ip draws
  | .portalAuth ip form draws => Front.portalAuth c ip form draws
  | .loginPage ip draws => Front.loginPage c ip draws
  | .loginSubmit ip header form draws => Front.loginSubmit c ip header form draws
  | .logout header => Front.logout c header
  | .redirectToLogin header => Front.redirectToLogin header
  | .admin header a => Front.admin c header a

end Didicafe
