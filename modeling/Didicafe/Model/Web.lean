/-
The routers (`web/mod.rs` and the `routes` of its modules), and which of them `main` listens with.
-/
import Didicafe.Lib.Http
import Didicafe.Model.Handlers
import Didicafe.Model.Net

namespace Didicafe

open Http

/-- The parts of the configuration that the routers read. -/
structure ListenConfig where
  portal : PortalConfig
  allowedNetworks : List String
  tlsEnabled : Bool

inductive Handler where
  | healthCheck | portalPage | portalAuth | successPage | expiredPage | statusPage | portalStatus | privacyPage
  | plansPage | redirectToPortal
  | captiveApi
  | dashboard | redirectToLogin | loginPage | loginSubmit | logout | managePage | manageSubmit | auditPage
  | settingsPage | settingsSubmit
  | listPlans | createPlan | updatePlan | togglePlanActive | listTokens | generateTokens | revokeToken | listSessions
  | disconnectSession | getStats | getWeeklyStats
  | serveDir
deriving DecidableEq

/-! ## Routes -/

def portalRoutes : List (Route Handler) := [
  ⟨"/health", [(.get, .healthCheck)]⟩,
  ⟨"/portal", [(.get, .portalPage)]⟩,
  ⟨"/portal/auth", [(.post, .portalAuth)]⟩,
  ⟨"/portal/success", [(.get, .successPage)]⟩,
  ⟨"/portal/expired", [(.get, .expiredPage)]⟩,
  ⟨"/portal/status", [(.get, .statusPage)]⟩,
  ⟨"/portal/status.json", [(.get, .portalStatus)]⟩,
  ⟨"/portal/privacy", [(.get, .privacyPage)]⟩,
  ⟨"/portal/plans", [(.get, .plansPage)]⟩]

def cpdRoutes : List (Route Handler) := [
  ⟨"/hotspot-detect.html", [(.get, .redirectToPortal)]⟩,
  ⟨"/generate_204", [(.get, .redirectToPortal)]⟩,
  ⟨"/connecttest.txt", [(.get, .redirectToPortal)]⟩,
  ⟨"/check_network_status.txt", [(.get, .redirectToPortal)]⟩]

def captiveRoutes : List (Route Handler) := [⟨"/api/captive", [(.get, .captiveApi)]⟩]

def adminRoutes : List (Route Handler) := [
  ⟨"/admin", [(.get, .dashboard)]⟩,
  ⟨"/admin/", [(.get, .redirectToLogin)]⟩,
  ⟨"/admin/login", [(.get, .loginPage), (.post, .loginSubmit)]⟩,
  ⟨"/admin/logout", [(.post, .logout)]⟩,
  ⟨"/admin/manage", [(.get, .managePage), (.post, .manageSubmit)]⟩,
  ⟨"/admin/audit", [(.get, .auditPage)]⟩,
  ⟨"/admin/settings", [(.get, .settingsPage), (.post, .settingsSubmit)]⟩]

def apiRoutes : List (Route Handler) := [
  ⟨"/api/plans", [(.get, .listPlans), (.post, .createPlan)]⟩,
  ⟨"/api/plans/{id}", [(.put, .updatePlan)]⟩,
  ⟨"/api/plans/{id}/active", [(.patch, .togglePlanActive)]⟩,
  ⟨"/api/tokens", [(.get, .listTokens)]⟩,
  ⟨"/api/tokens/generate", [(.post, .generateTokens)]⟩,
  ⟨"/api/tokens/{id}", [(.delete, .revokeToken)]⟩,
  ⟨"/api/sessions", [(.get, .listSessions)]⟩,
  ⟨"/api/sessions/{id}", [(.delete, .disconnectSession)]⟩,
  ⟨"/api/stats", [(.get, .getStats)]⟩,
  ⟨"/api/stats/weekly", [(.get, .getWeeklyStats)]⟩]

/-- A handler of the admin pages or of the REST API. -/
def Handler.isAdmin (h : Handler) : Bool := (adminRoutes ++ apiRoutes).any fun r => r.methods.any fun x => x.2 = h

/-! ## Middleware -/

def startsWith (path base : String) : Bool := base.toList.isPrefixOf path.toList

/-- `security_headers`. -/
def securityHeaders : Layer IpAddr Handler :=
  addHeaders fun req =>
    [("X-Content-Type-Options", "nosniff"),
      ("X-Frame-Options", "DENY"),
      ("Content-Security-Policy", "default-src 'self'; script-src 'self'; style-src 'self' 'unsafe-inline'; " ++
        "img-src 'self'; font-src 'self'; connect-src 'self'; frame-ancestors 'none'; base-uri 'self'; " ++
        "form-action 'self'"),
      ("Referrer-Policy", "strict-origin-when-cross-origin"),
      ("X-XSS-Protection", "0"),
      ("Permissions-Policy", "camera=(), microphone=(), geolocation=(), payment=(), usb=()")] ++
    if startsWith req.path "/admin" ∨ startsWith req.path "/api" then
      [("Cache-Control", "no-store, no-cache, must-revalidate"), ("Pragma", "no-cache")]
    else if startsWith req.path "/static" then [("Cache-Control", "public, no-cache")]
    else []

/-- `HeaderValue::from_str`: visible ASCII, spaces and tabs. -/
def headerValue (s : String) : Option String :=
  if s.toList.all fun x => x == '\t' || (32 ≤ x.toNat && x.toNat < 127) then some s else none

def captivePortalHeaderValue (config : ListenConfig) : Option String :=
  headerValue ("<" ++ buildPortalUrl config.portal "/api/captive" ++ ">")

/-- `captive_portal_header`. -/
def captivePortalHeader (config : ListenConfig) : Layer IpAddr Handler :=
  addHeaders fun _ => (captivePortalHeaderValue config).toList.map fun value => ("Captive-Portal", value)

/-- `hsts_header`. -/
def hstsHeader : Layer IpAddr Handler := addHeaders fun _ => [("Strict-Transport-Security", "max-age=63072000")]

/-- `admin_network_filter`. -/
def adminNetworkFilter (config : ListenConfig) : Layer IpAddr Handler := fun next req =>
  let allowed := config.allowedNetworks
  if ¬ allowed.isEmpty ∧ ¬ allowed.any (ipInCidr req.addr) then
    ⟨⟨403, [("content-type", "text/plain; charset=utf-8")], "access denied"⟩, none⟩
  else next req

/-! ## Routers -/

section

variable (app : Handler → Response) (config : ListenConfig)

/-- `portal_router`, the HTTP listener with TLS. -/
def portalRouter : Service IpAddr Handler :=
  securityHeaders (captivePortalHeader config
    (dispatch app (portalRoutes ++ cpdRoutes ++ captiveRoutes) ("/static", .serveDir) "/portal"))

/-- `admin_router`, the HTTPS listener. -/
def adminRouter : Service IpAddr Handler :=
  securityHeaders (hstsHeader (adminNetworkFilter config
    (dispatch app (adminRoutes ++ apiRoutes) ("/static", .serveDir) "/admin/login")))

/-- `combined_router`, the only listener without TLS. -/
def combinedRouter : Service IpAddr Handler :=
  securityHeaders (captivePortalHeader config
    (dispatch app (portalRoutes ++ cpdRoutes ++ captiveRoutes ++ adminRoutes ++ apiRoutes) ("/static", .serveDir)
      "/portal"))

/-- The router that `main` serves the admin pages with. -/
def mainRouter : Service IpAddr Handler :=
  if config.tlsEnabled then adminRouter app config else combinedRouter app config

end

end Didicafe
