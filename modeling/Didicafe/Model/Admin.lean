/-
The admin pages of `web/admin.rs` and the handlers of `web/api.rs` for token lists, sessions and statistics. The cafe
name and the theme are read from the settings for every page; they are left out here, since a page is rendered
whatever they are.
-/
import Didicafe.Model.Plans

namespace Didicafe

/-! ## Queries of several statements -/

/-- `list_tokens_paged`. The offset does not overflow for a page that exists. -/
def listTokensPaged (statusFilter : Option String) (page perPage : Int) : App (List Token × Int) := do
  let offset := (page - 1) * perPage
  let total ← sql (.countTokens statusFilter)
  let tokens ← sql (.pageTokens statusFilter perPage offset)
  return (tokens, total)

def getDailyStats : App DailyStats := do
  let tokensSold ← sql .countSoldToday
  let activeSessions ← sql .countLiveSessions
  let revenue ← sql .sumRevenueToday
  return { tokensSold := tokensSold, activeSessions := activeSessions, revenueAriary := revenue }

/-- `GET /health` of `web/portal.rs`, with the status of the answer. -/
def healthCheck : Effect.Prog Op Op.Out Nat := do
  match ← getDailyStats.run with
  | .ok _ => return 200
  | .error _ => return 503

/-! ## The REST API -/

/-- `GET /api/plans`. -/
def apiListPlans : Api (List Plan) := Api.internal (sql .listPlans)

/-- `GET /api/tokens`. -/
def apiListTokens (status : Option String) : Api (List Token) :=
  let list := Api.internal (sql (.listTokens status))
  match status with
  | some text =>
    if text ∈ TokenStatus.all then list
    else throw (.badRequest ("invalid status filter '" ++ text ++ "', must be one of: " ++
      String.intercalate ", " TokenStatus.all))
  | none => list

/-- `GET /api/sessions`. -/
def apiListSessions : Api (List Session) := Api.internal (sql .getActiveSessions)

/-- `DELETE /api/sessions/{id}`. -/
def apiDisconnectSession (adminUser : String) (id : Int) : Api Unit := do
  ExceptT.mk ((disconnect id).run >>= fun r => pure (r.mapError .firewall))
  Api.ignore (sql (.auditLog adminUser "disconnect_session" (some "session") (some id) none))

/-- `GET /api/stats`. -/
def apiGetStats : Api DailyStats := Api.internal getDailyStats

/-- `GET /api/stats/weekly`. -/
def apiGetWeeklyStats : Api (List DayStats) := Api.internal (sql .getWeeklyStats)

/-! ## The management page -/

def tokensPerPage : Int := 50

/-- What the management page shows. -/
structure ManageData where
  tokenPage : TokenPage
  plans : List Plan
  sessions : List Session
deriving DecidableEq

def loadManageData (statusFilter : String) (page : Int) : Api ManageData := do
  let dbFilter := if statusFilter = "all" then none else some statusFilter
  let (tokens, total) ← Api.internal (listTokensPaged dbFilter page tokensPerPage)
  let plans ← Api.internal (sql .listPlans)
  let sessions ← Api.internal (sql .getLiveSessions)
  return { tokenPage := { tokens := tokens, total := total, page := page, perPage := tokensPerPage,
                          statusFilter := statusFilter }
           plans := plans
           sessions := sessions }

/-- `parse_token_query`. -/
def parseTokenQuery (tokenStatus : Option String) (tokenPage : Option Int) : String × Int :=
  let statusFilter :=
    match tokenStatus with
    | some text => if text ∈ "all" :: TokenStatus.all then text else "current"
    | none => "current"
  (statusFilter, max (tokenPage.getD 1) 1)

/-- `GET /admin/manage`. -/
def managePage (tokenStatus : Option String) (tokenPage : Option Int) : Api ManageData :=
  loadManageData (parseTokenQuery tokenStatus tokenPage).1 (parseTokenQuery tokenStatus tokenPage).2

/-- `GET /admin`, with the statistics and the sessions it shows. -/
def dashboard : Api (DailyStats × List Session) := do
  let stats ← Api.internal getDailyStats
  let activeSessions ← Api.internal (sql .getLiveSessions)
  return (stats, activeSessions)

structure I18nMessage where
  key : String
  args : List (String × String)
deriving DecidableEq

structure ManageForm where
  planId : Option Int
  count : Option Nat
  name : Option String
  duration : Option Int
  price : Option Int
  planName : Option String
  csrfToken : String

/-- A field of the form that has to be there. -/
def required (field : Option Int) (key : String) : Except AppError Int :=
  match field with
  | some x => .ok x
  | none => .error (.badRequest key)

@[simp] theorem required_some (x : Int) (key : String) : required (some x) key = .ok x := rfl

@[simp] theorem required_none (key : String) : required none key = .error (.badRequest key) := rfl

/-- The plan creation of the form; nothing is done for an empty name. -/
def manageCreatePlan (adminUser planName : String) (duration price : Option Int) : Api (Option I18nMessage) :=
  if planName ≠ "" then do
    let duration ← Api.ofExcept (required duration "admin.error.duration_required")
    let price ← Api.ofExcept (required price "admin.error.price_required")
    Api.ofExcept (validatePlanInput planName duration price)
    let _ ← Api.internal (sql (.createPlan planName duration price))
    Api.ignore (sql (.auditLog adminUser "create_plan" (some "plan") none (some planName)))
    return some ⟨"admin.manage.plan_created", [("name", planName)]⟩
  else return none

/-- The checks of the form's token generation, before the plan is looked up. -/
def validateGenerateForm (name : String) (count : Nat) : Except AppError Unit :=
  if name = "" then .error (.badRequest "admin.error.name_empty")
  else if name.utf8ByteSize > 200 then .error (.badRequest "admin.error.name_too_long_200")
  else if count > 100 then .error (.badRequest "admin.error.count_max")
  else .ok ()

/-- The token generation of the form; nothing is done for a count of zero. -/
def manageGenerateTokens (c : TokenConfig) (adminUser : String) (planId : Int) (count : Option Nat)
    (name : Option String) (draws : Nat → Draws c) : Api (Option I18nMessage) :=
  let count := count.getD 0
  if count > 0 then do
    let tokenName := name.getD ""
    Api.ofExcept (validateGenerateForm tokenName count)
    match ← Api.internal (sql (.getPlan planId)) with
    | none => throw (.notFound s!"plan {planId} not found")
    | some plan =>
      if plan.active = false then throw (.badRequest "admin.error.plan_inactive")
      else
        let codes ← Api.internal (generateTokens c planId count (some tokenName) draws)
        Api.ignore (sql (.auditLog adminUser "generate_tokens" (some "token") (some planId)
          (some s!"{codes.length} tokens for plan {planId}")))
        return some ⟨"admin.manage.tokens_generated", [("count", toString codes.length)]⟩
  else return none

/-- `POST /admin/manage`, for the CSRF token of the caller's session and the draws of the codes. -/
def manageSubmit (c : TokenConfig) (adminUser csrf : String) (form : ManageForm) (draws : Nat → Draws c) :
    Api (ManageData × Option I18nMessage) := do
  if form.csrfToken ≠ csrf then throw (.badRequest "admin.error.csrf")
  else
    let message ←
      match form.planName, form.planId with
      | some planName, _ => manageCreatePlan adminUser planName form.duration form.price
      | none, some planId => manageGenerateTokens c adminUser planId form.count form.name draws
      | none, none => pure none
    let data ← loadManageData "current" 1
    return (data, message)

/-! ## The settings page -/

structure SettingsForm where
  cafeName : String
  welcomeMessage : String
  themeColor : String
  contactName : String
  contactPhone : String
  contactHours : String
  csrfToken : String

/-- `is_valid_hex_color`. -/
def isValidHexColor (s : String) : Bool :=
  match s.toList with
  | '#' :: digits =>
    (byteLen digits == 3 || byteLen digits == 6) &&
      digits.all fun c => c.isDigit || ('a' ≤ c && c ≤ 'f') || ('A' ≤ c && c ≤ 'F')
  | _ => false

/-- The form with all of its fields but the token trimmed. -/
def SettingsForm.trimmed (form : SettingsForm) : SettingsForm :=
  let trimText (s : String) := String.ofList (trim s.toList)
  { cafeName := trimText form.cafeName, welcomeMessage := trimText form.welcomeMessage,
    themeColor := trimText form.themeColor, contactName := trimText form.contactName,
    contactPhone := trimText form.contactPhone, contactHours := trimText form.contactHours,
    csrfToken := form.csrfToken }

/-- The checks of the trimmed form. -/
def SettingsForm.validate (form : SettingsForm) : Except AppError Unit :=
  if form.cafeName = "" then .error (.badRequest "admin.error.name_empty")
  else if form.cafeName.utf8ByteSize > 100 then .error (.badRequest "admin.error.name_too_long")
  else if form.welcomeMessage.utf8ByteSize > 500 then .error (.badRequest "admin.error.welcome_too_long")
  else if isValidHexColor form.themeColor = false then .error (.badRequest "admin.error.invalid_color")
  else if form.contactName.utf8ByteSize > 100 then .error (.badRequest "admin.error.name_too_long")
  else if form.contactPhone.utf8ByteSize > 30 then .error (.badRequest "admin.error.phone_too_long")
  else if form.contactHours.utf8ByteSize > 100 then .error (.badRequest "admin.error.hours_too_long")
  else .ok ()

/-- The settings that are written for the form, in this order. -/
def SettingsForm.settings (form : SettingsForm) : List Setting :=
  [⟨"cafe_name", form.cafeName⟩, ⟨"welcome_message", form.welcomeMessage⟩, ⟨"theme_color", form.themeColor⟩,
    ⟨"contact_name", form.contactName⟩, ⟨"contact_phone", form.contactPhone⟩, ⟨"contact_hours", form.contactHours⟩]

/-- `PortalConfig`, the portal section of the configuration file. -/
structure PortalSection where
  domain : String
  adminDomain : String
  cafeName : String
  welcomeMessage : String
  themeColor : String
  contactPhone : String
  contactName : String
  contactHours : String
deriving DecidableEq, Repr

/-- The loop body of `portal_config_from_db`. -/
def PortalSection.overlay (cfg : PortalSection) (x : Setting) : PortalSection :=
  if x.key = "cafe_name" ∧ x.value ≠ "" then { cfg with cafeName := x.value }
  else if x.key = "welcome_message" then { cfg with welcomeMessage := x.value }
  else if x.key = "theme_color" ∧ isValidHexColor x.value then { cfg with themeColor := x.value }
  else if x.key = "contact_name" then { cfg with contactName := x.value }
  else if x.key = "contact_phone" then { cfg with contactPhone := x.value }
  else if x.key = "contact_hours" then { cfg with contactHours := x.value }
  else cfg

/-- `portal_config_from_db`: without the settings when they cannot be read. -/
def portalConfigFromDb (base : PortalSection) : Effect.Prog Op Op.Out PortalSection := do
  let settings ← (sql .getAllSettings).run
  match settings with
  | .ok settings => return settings.foldl PortalSection.overlay base
  | .error _ => return base

/-- `POST /admin/settings`, with the message of the page. -/
def settingsSubmit (adminUser csrf : String) (form : SettingsForm) : Api String := do
  if form.csrfToken ≠ csrf then throw (.badRequest "admin.error.csrf")
  else
    let form := form.trimmed
    Api.ofExcept form.validate
    form.settings.forM fun x => Api.internal (sql (.setSetting x.key x.value))
    Api.ignore (sql (.auditLog adminUser "update_settings" (some "setting") none
      (some s!"cafe_name={form.cafeName}, theme_color={form.themeColor}")))
    return "admin.settings.saved"

/-! ## Logging in -/

def adminAuthorizeTimeoutSecs : Nat := 7 * 24 * 3600

/-- What `login_submit` does to the database and the firewall: for the outcome of the check of the credentials, and for
the address pair of the client if it is in the ARP table. -/
def recordLogin (username : String) (accepted : Bool) (client : Option (String × String)) : Api Bool := do
  if accepted then
    Api.ignore (sql (.auditLog username "login" none none none))
    match client with
    | some (mac, ip) => Api.ignore (authorizeClient mac ip adminAuthorizeTimeoutSecs)
    | none => pure ()
    return true
  else
    Api.ignore (sql (.auditLog username "login_failed" none none none))
    return false

/-! ## Requests -/

/-- What an admin can ask for with a session. -/
inductive AdminAction (c : TokenConfig) where
  | listPlans
  | createPlan (name : String) (durationMinutes priceAriary : Int)
  | updatePlan (id : Int) (name : String) (durationMinutes priceAriary : Int) (active : Bool)
  | togglePlanActive (id : Int) (active : Bool)
  | listTokens (status : Option String)
  | generateTokens (name : String) (planId : Int) (count : Nat) (draws : Nat → Draws c)
  | revokeToken (id : Int)
  | listSessions
  | disconnectSession (id : Int)
  | stats
  | weeklyStats
  | dashboard
  | managePage (tokenStatus : Option String) (tokenPage : Option Int)
  | manageSubmit (form : ManageForm) (draws : Nat → Draws c)
  | settingsSubmit (form : SettingsForm)

namespace AdminAction

variable {c : TokenConfig}

/-- The path of the request starts with `/api/`. -/
def apiPath : AdminAction c → Bool
  | .dashboard | .managePage .. | .manageSubmit .. | .settingsSubmit _ => false
  | _ => true

/-- The handler, for the CSRF token of the session. -/
def handler (adminUser csrf : String) : AdminAction c → Api Unit
  | .listPlans => Api.void apiListPlans
  | .createPlan name durationMinutes priceAriary => Api.void (apiCreatePlan adminUser name durationMinutes priceAriary)
  | .updatePlan id name durationMinutes priceAriary active =>
    Api.void (apiUpdatePlan adminUser id name durationMinutes priceAriary active)
  | .togglePlanActive id active => Api.void (apiTogglePlanActive id active)
  | .listTokens status => Api.void (apiListTokens status)
  | .generateTokens name planId count draws => Api.void (apiGenerateTokens c name planId count draws)
  | .revokeToken id => ExceptT.mk (apiRevokeToken adminUser id)
  | .listSessions => Api.void apiListSessions
  | .disconnectSession id => apiDisconnectSession adminUser id
  | .stats => Api.void apiGetStats
  | .weeklyStats => Api.void apiGetWeeklyStats
  | .dashboard => Api.void Didicafe.dashboard
  | .managePage tokenStatus tokenPage => Api.void (Didicafe.managePage tokenStatus tokenPage)
  | .manageSubmit form draws => Api.void (Didicafe.manageSubmit c adminUser csrf form draws)
  | .settingsSubmit form => Api.void (Didicafe.settingsSubmit adminUser csrf form)

end AdminAction

/-- A request to the admin's pages or the REST API: a login that gets to the check of its credentials, or an action
with the CSRF token of the session the cookie belongs to, if it belongs to one. Left out are the pages that only read
settings or audit entries, and `logout`, which only removes a session from the store; a body that cannot be parsed is
refused in front of the handler. -/
inductive AdminRequest (c : TokenConfig) where
  | login (username : String) (accepted : Bool) (client : Option (String × String))
  | action (session : Option String) (a : AdminAction c)

def AdminRequest.program {c : TokenConfig} (adminUser : String) : AdminRequest c → Api Unit
  | .login username accepted client => Api.void (recordLogin username accepted client)
  | .action none a => throw (.unauthorized a.apiPath)
  | .action (some csrf) a => a.handler adminUser csrf

end Didicafe
