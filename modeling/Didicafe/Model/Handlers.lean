/-
The HTTP handlers of `web/portal.rs`, `web/captive.rs` and `web/api.rs` that read or change tokens
and sessions, and the session restore loop of `main.rs`.
-/
import Didicafe.Model.Services

namespace Didicafe

/-! ## The portal -/

/-- The answer of `portal_auth`: a redirect to the success page, the portal page with an error key, or
an internal error. -/
inductive PortalResponse where
  | success
  | error (key : String)
  | internal (e : Err)
deriving DecidableEq, Repr

/-- `portal_auth` from the token lookup on, for the address pair of the client. -/
def portalAuth (code mac ip : String) : Effect.Prog Op Op.Out PortalResponse := do
  match ← (validateToken code).run with
  | .error e => return .internal e
  | .ok (.unused token) =>
    match ← (createSession token.id token.durationMinutes mac ip).run with
    | .ok _ => return .success
    | .error _ => return .error "portal.error.internal"
  | .ok (.active token) =>
    match ← (migrateSession token.id mac ip).run with
    | .ok _ => return .success
    | .error _ => return .error "portal.error.expired"
  | .ok .invalid => return .error "portal.error.invalid"

/-! ## The captive portal API -/

structure PortalConfig where
  domain : String
  port : Nat
deriving DecidableEq, Repr

def buildPortalUrl (config : PortalConfig) (path : String) : String :=
  if config.port = 80 then s!"http://{config.domain}{path}"
  else s!"http://{config.domain}:{config.port}{path}"

structure CapportResponse where
  captive : Bool
  userPortalUrl : String
  venueInfoUrl : String
  canExtendSession : Bool
  secondsRemaining : Option Int
deriving DecidableEq, Repr

/-- `resolve_client_mac`, given what the ARP table says. -/
def resolveClientMac (arp : Option String) : Option String := arp.filter isValidMac

/-- `captive_api` up to the serialization of its answer. -/
def captiveApi (config : PortalConfig) (arp : Option String) : App CapportResponse := do
  let session ←
    match resolveClientMac arp with
    | some mac => sql (.getSessionByMac mac)
    | none => pure none
  let captive : CapportResponse :=
    { captive := true, userPortalUrl := buildPortalUrl config "/portal",
      venueInfoUrl := buildPortalUrl config "/portal/plans", canExtendSession := false, secondsRemaining := none }
  match session with
  | some s =>
    let remaining ← s.remainingSeconds
    if remaining > 0 then
      let remaining ← s.remainingSeconds
      return { captive with captive := false, secondsRemaining := some remaining }
    else return captive
  | none => return captive

/-! ## The admin API -/

inductive AppError where
  | firewall (e : Err)
  | unauthorized (apiPath : Bool)
  | internal (e : Err)
  | notFound (text : String)
  | badRequest (text : String)
deriving DecidableEq, Repr

/-- `DELETE /api/tokens/{id}`. -/
def apiRevokeToken (adminUser : String) (id : Int) : Effect.Prog Op Op.Out (Except AppError Unit) := do
  match ← (sql (.getTokenById id)).run with
  | .error e => return .error (.internal e)
  | .ok none => return .error (.notFound s!"token {id} not found")
  | .ok (some token) =>
    if token.status ≠ .unused then
      return .error (.badRequest s!"cannot revoke token with status '{token.status.text}'")
    else
      match ← (sql (.revokeToken id)).run with
      | .error e => return .error (.internal e)
      | .ok () =>
        -- how many rows the update has changed is not known here
        let _ ← (sql (.auditLog adminUser "revoke_token" (some "token") (some id) none)).run
        return .ok ()

/-! ## Startup -/

/-- The body of the restore loop. -/
def restoreSession (grace : Int) (session : Session) : Effect.Prog Op Op.Out PUnit := do
  let remaining ← session.remainingSeconds
  if remaining > grace then
    let _ ← (authorizeClient session.macAddress session.ipAddress (asU64 remaining)).run
    return ()
  else
    match ← (sql (.expireSession session.id)).run with
    | .error _ => return ()
    | .ok () =>
      let _ ← (sql (.expireToken session.tokenId)).run
      return ()

/-- The session restore of `main`. -/
def restoreSessions (grace : Int) : App PUnit := do
  let activeSessions ← sql .getActiveSessions
  ExceptT.lift (activeSessions.forM (restoreSession grace))

end Didicafe
