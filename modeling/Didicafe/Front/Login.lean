/-
The login form and the requests behind it. A session is created only for a login with the right credentials, which are
only looked at when the form has its token, the limiter lets the attempt pass, and the texts are not too long; an admin
request comes to its handler only with a session that is still there.
-/
import Didicafe.Front.Desk
import Didicafe.Limiter.Sections

namespace Didicafe

open Effect Runs

variable {c : FrontConfig} {ip : IpAddr} {header : Option String} {form : LoginForm} {draws : FrontDraws}
  {past past' : Past Access Access.Out}

/-! ## The guards -/

/-- The credentials of the form may be looked at. -/
structure Attempted (c : FrontConfig) (ip : IpAddr) (form : LoginForm) (past : Past Access Access.Out) : Prop where
  vouched : Vouched c .login ip.display form.csrfToken past
  allowed : Allowed .login ip past
  username : form.username.utf8ByteSize ≤ Front.maxUsernameLen
  password : form.password.utf8ByteSize ≤ Front.maxPasswordLen

/-- They are right. -/
structure Credentials (c : FrontConfig) (ip : IpAddr) (form : LoginForm) (past : Past Access Access.Out) : Prop extends
    Attempted c ip form past where
  admin : form.username = c.adminUsername
  verified : ⟨.verifyPassword form.password c.passwordHash, true⟩ ∈ past

/-- What a login may do to the database and the firewall. -/
inductive LoginDoes (c : FrontConfig) (ip : IpAddr) (form : LoginForm) (past : Past Access Access.Out) : Op → Prop where
  | settings : LoginDoes c ip form past (.sql .getAllSettings)
  | failed (h : Attempted c ip form past) :
    LoginDoes c ip form past (.sql (.auditLog form.username "login_failed" none none none))
  | login (h : Credentials c ip form past) :
    LoginDoes c ip form past (.sql (.auditLog form.username "login" none none none))
  | letIn (h : Credentials c ip form past) {mac : String} (hmac : Found c ip mac past) :
    LoginDoes c ip form past (.nft (.addElement mac ip.display adminAuthorizeTimeoutSecs))

/-- What a login may do at all. -/
def loginGuard (c : FrontConfig) (ip : IpAddr) (header : Option String) (form : LoginForm) :
    Guard Access Access.Out := fun past op =>
  match op with
  | .world op => LoginDoes c ip form past op
  | .sessions (.insert _ data) => Credentials c ip form past ∧
    ∃ now, ⟨.sessions .now, now⟩ ∈ past ∧ data.expiresAt = now + fromSecs c.sessionTimeoutSeconds
  | .sessions (.remove sessionId) => Credentials c ip form past ∧ extractCookie header adminCookieName = some sessionId
  | .verifyPassword password hash => Attempted c ip form past ∧ password = form.password ∧ hash = c.passwordHash
  | .csrf .login (.write key _ _) => key = c.lower ip.display
  | .sessions (.validate _) | .sessions (.csrfToken _) | .csrf .login (.set ..) | .csrf .portal _
  | .limiter .portal _ => False
  | _ => True

/-- The form token that an action of the admin comes with, if it comes with one. -/
def AdminAction.submitted {c : TokenConfig} : AdminAction c → Option String
  | .manageSubmit form _ => some form.csrfToken
  | .settingsSubmit form => some form.csrfToken
  | _ => none

/-- The request has the cookie of a session, and the form token of that session if it is a form. -/
structure LoggedIn {c : TokenConfig} (header : Option String) (a : AdminAction c) (sessionId : String)
    (past : Past Access Access.Out) : Prop where
  cookie : extractCookie header adminCookieName = some sessionId
  live : ⟨.sessions (.validate sessionId), true⟩ ∈ past
  form : ∀ token, a.submitted = some token → ⟨.sessions (.csrfToken sessionId), token⟩ ∈ past

/-- What an admin request may do at all. -/
def adminGuard (c : FrontConfig) (header : Option String) (a : AdminAction c.token) : Guard Access Access.Out :=
  fun past op =>
    match op with
    | .world _ => ∃ sessionId, LoggedIn header a sessionId past
    | .sessions (.validate sessionId) | .sessions (.csrfToken sessionId) =>
      extractCookie header adminCookieName = some sessionId
    | _ => False

/-- What the requests that neither have a form nor an admin's handler may do: they look at the session of their cookie,
or remove it. -/
def cookieGuard (header : Option String) : Guard Access Access.Out := fun _ op =>
  match op with
  | .sessions (.validate sessionId) | .sessions (.remove sessionId) =>
    extractCookie header adminCookieName = some sessionId
  | _ => False

theorem Attempted.later (h : Attempted c ip form past) (hp : past <:+ past') : Attempted c ip form past' :=
  ⟨h.vouched.later hp, h.allowed.later hp, h.username, h.password⟩

theorem Credentials.later (h : Credentials c ip form past) (hp : past <:+ past') : Credentials c ip form past' :=
  ⟨h.toAttempted.later hp, h.admin, hp.mem h.verified⟩

/-! ## Logging in -/

section Login

theorem guard_of_renews_login {op : Access} (hop : Renews c .login ip.display op) :
    loginGuard c ip header form past op := by
  unfold Renews at hop
  split at hop
  · cases hop
    trivial
  · obtain ⟨rfl, rfl⟩ := hop
    rfl
  · cases hop

theorem keeps_loginError {status : Nat} {retryAfter : Option Nat} {error : String} {portal : PortalSection} :
    (Front.loginError c status retryAfter error ip portal draws).Keeps possible (loginGuard c ip header form)
      (fun _ _ => True) past :=
  keeps_free (fun _ _ _ => guard_of_renews_login) renews_loginError

/-- One operation of the login, with the rest of the journal known. -/
theorem keeps_removeCookie (h : Credentials c ip form past) :
    (Front.sessions (removeCookie (extractCookie header adminCookieName))).Keeps possible (loginGuard c ip header form)
      (fun _ past' => past <:+ past') past := by
  cases hid : extractCookie header adminCookieName with
  | none => exact List.suffix_refl _
  | some sessionId => exact ⟨⟨h, hid⟩, fun _ _ => List.suffix_cons ..⟩

theorem keeps_admitManager (h : Credentials c ip form past) {mac : String} (hmac : Found c ip mac past) :
    (Front.world (authorizeClient mac ip.display adminAuthorizeTimeoutSecs).run).Keeps possible
      (loginGuard c ip header form) (fun _ past' => past <:+ past') past := by
  refine Prog.keeps_of_uses
    (K := (· = .world (.nft (.addElement mac ip.display adminAuthorizeTimeoutSecs)))) ?_ ?_
  · rintro past' op hp rfl
    exact .letIn (h.later hp) (hmac.later hp)
  · refine Prog.uses_embed (Fallible.Uses.bind (x := App.ofExcept _) trivial fun _ => ?_)
    exact Prog.Uses.bind ⟨rfl, fun _ => trivial⟩ fun _ => trivial

/-- What `create` does once it knows when the session ends, if that is an instant. -/
def storeSession (sessionId csrf : String) :
    (expiresAt : Option Nat) → Prog StoreOp StoreOp.Out (Except Rejection String)
  | none => .done (.error (.panic "overflow when adding duration to instant"))
  | some expiresAt => .call (.insert sessionId ⟨expiresAt, csrf⟩) fun _ => .done (.ok sessionId)

theorem run_createAdminSession (timeout : Nat) (idDraws csrfDraws : Nat → Fin sessionCharset.length) :
    (createAdminSession timeout idDraws csrfDraws).run = Prog.call .now fun now =>
      storeSession (generateSessionToken sessionIdLen idDraws) (generateSessionToken sessionIdLen csrfDraws)
        (checkedAdd now timeout) := by
  unfold createAdminSession
  refine Prog.call_congr fun now => ?_
  simp only [Prog.bind, Function.comp_apply, ExceptT.bindCont]
  cases checkedAdd now timeout <;> rfl

theorem keeps_storeSession (h : Credentials c ip form past) {sessionId csrf : String} (ends : Nat → Option Nat)
    (hends : ∀ now e, ends now = some e → e = now + fromSecs c.sessionTimeoutSeconds) :
    ((Prog.call .now fun now => storeSession sessionId csrf (ends now)).embed Access.sessions fun _ r => r).Keeps
      possible (loginGuard c ip header form) (fun _ _ => True) past := by
  refine ⟨trivial, fun now _ => ?_⟩
  cases hend : ends now with
  | none =>
    dsimp only
    rw [hend]
    trivial
  | some e =>
    dsimp only
    rw [hend]
    exact ⟨⟨h.later (List.suffix_cons ..), now, List.mem_cons_self .., hends now e hend⟩, fun _ _ => trivial⟩

theorem keeps_createAdminSession (h : Credentials c ip form past) :
    (Front.sessions (createAdminSession (fromSecs c.sessionTimeoutSeconds) draws.sessionId draws.sessionCsrf)).Keeps
      possible (loginGuard c ip header form) (fun _ _ => True) past := by
  unfold Front.sessions
  rw [run_createAdminSession]
  exact keeps_storeSession h (fun now => checkedAdd now (fromSecs c.sessionTimeoutSeconds)) fun now e hend =>
    checkedAdd_some hend

theorem keeps_enterSession (h : Credentials c ip form past) :
    (Front.enterSession c draws).Keeps possible (loginGuard c ip header form) (fun _ _ => True) past :=
  (keeps_createAdminSession h).bind fun r _ _ => by cases r <;> trivial

theorem keeps_logIn (h : Credentials c ip form past) :
    (Front.logIn c ip header form.username draws).Keeps possible (loginGuard c ip header form) (fun _ _ => True)
      past := by
  refine ⟨.login h, fun logged _ => ?_⟩
  have h₁ := h.later (List.suffix_cons ⟨.world (.sql (.auditLog form.username "login" none none none)), logged⟩ past)
  refine (keeps_removeCookie h₁).bind fun _ past₂ hp₂ => ?_
  have hp₂ := (List.suffix_cons ..).trans hp₂
  refine (keeps_lookupMac fun _ _ _ hop => ?_).bind fun arp past₃ ⟨hp₃, hfound⟩ => ?_
  · rcases hop with rfl | rfl | rfl <;> trivial
  have hp₃ := hp₂.trans hp₃
  cases arp with
  | none => exact keeps_enterSession (h.later hp₃)
  | some mac =>
    refine (keeps_admitManager (h.later hp₃) (hfound mac rfl)).bind fun _ past₄ hp₄ => ?_
    exact keeps_enterSession (h.later (hp₃.trans hp₄))

/-- What the login does in all. -/
theorem uses_logIn {K : Access → Prop} {username : String}
    (hlog : K (.world (.sql (.auditLog username "login" none none none)))) (hsessions : ∀ op, K (.sessions op))
    (harp : K .procNetArp ∧ K (.ipNeigh ip.display) ∧ K .arpCommand)
    (hlets : ∀ mac, K (.world (.nft (.addElement mac ip.display adminAuthorizeTimeoutSecs)))) :
    (Front.logIn c ip header username draws).Uses K := by
  have entered : (Front.enterSession c draws).Uses K := (uses_sessions _ hsessions).bind fun r => by cases r <;> trivial
  refine Prog.Uses.bind (Prog.uses_embed ⟨hlog, fun _ => trivial⟩) fun _ => (uses_sessions _ hsessions).bind fun _ => ?_
  refine (uses_lookupMac harp).bind fun arp => ?_
  cases arp with
  | none => exact entered
  | some mac =>
    refine Prog.Uses.bind (Prog.uses_embed (Fallible.Uses.bind (x := App.ofExcept _) trivial fun _ => ?_)) fun _ =>
      entered
    exact Prog.Uses.bind ⟨hlets mac, fun _ => trivial⟩ fun _ => trivial

theorem keeps_loginSubmit : (Front.loginSubmit c ip header form draws).Keeps possible (loginGuard c ip header form)
    (fun _ _ => True) past := by
  refine (keeps_settings .settings).bind fun portal past₁ _ => ?_
  refine (keeps_validate (P := fun _ => True) trivial trivial).bind fun own past₂ ⟨_, hvouched⟩ => ?_
  split
  · exact keeps_loginError
  rename_i hown
  refine (keeps_checkAndRecord (P := fun _ => True) (fun _ _ => trivial) fun _ _ _ => ?_).bind
    fun verdict past₃ ⟨hp₃, hallowed⟩ => ?_
  · trivial
  rcases verdict with e | _ | _ | retryAfterSeconds
  · trivial
  · -- the attempt is allowed
    show Prog.Keeps possible _ _ (ite _ _ _) past₃
    split
    · exact keeps_loginError
    rename_i hshort
    obtain ⟨husername, hpassword⟩ := not_or.1 hshort
    have attempted : Attempted c ip form past₃ :=
      ⟨hp₃.mem (hvouched (by simpa using hown)).mem, (hallowed rfl).imp fun _ h => h.mem, Nat.not_lt.1 husername,
        Nat.not_lt.1 hpassword⟩
    refine ⟨⟨attempted, rfl, rfl⟩, fun passwordOk _ => ?_⟩
    have attempted := attempted.later
      (List.suffix_cons ⟨.verifyPassword form.password c.passwordHash, passwordOk⟩ past₃)
    show Prog.Keeps possible _ _ (ite _ _ _) _
    split
    · rename_i hright
      obtain ⟨hadmin, rfl⟩ := hright
      exact keeps_logIn ⟨attempted, hadmin, List.mem_cons_self ..⟩
    · exact ⟨.failed attempted, fun _ _ => keeps_loginError⟩
  · exact keeps_loginError
  · exact keeps_loginError

/-- The login page stores form tokens for its address, and reads the settings. -/
def loginPageGuard (c : FrontConfig) (ip : IpAddr) : Guard Access Access.Out := fun _ op =>
  match op with
  | .csrf .login (.write key _ _) => key = c.lower ip.display
  | .csrf .login .now | .csrf .login (.read _) => True
  | .world op => op = .sql .getAllSettings
  | _ => False

theorem keeps_loginPage : (Front.loginPage c ip draws).Keeps possible (loginPageGuard c ip) (fun _ _ => True) past := by
  have form : (Front.getOrGenerate c .login ip.display draws).Keeps possible (loginPageGuard c ip) (fun _ _ => True)
      past := by
    refine ⟨trivial, fun live _ => ?_⟩
    cases live with
    | some token => trivial
    | none => exact ⟨trivial, fun _ _ => ⟨rfl, fun _ _ => trivial⟩⟩
  exact form.bind fun csrfToken past₂ _ => (keeps_settings rfl).bind fun _ _ _ => trivial

end Login

/-! ## Behind the login -/

section Admin

variable {a : AdminAction c.token}

/-- The first extractor: the session of the cookie is there. -/
theorem keeps_adminSession {G : Guard Access Access.Out} (apiPath : Bool) {cookie : Option String}
    (hG : ∀ sessionId, cookie = some sessionId → G past (.sessions (.validate sessionId))) :
    (Front.sessions (adminSession apiPath cookie)).Keeps possible G
      (fun r past' => past <:+ past' ∧ (r = .ok () →
        ∃ sessionId, cookie = some sessionId ∧ ⟨.sessions (.validate sessionId), true⟩ ∈ past')) past := by
  cases cookie with
  | none => exact ⟨List.suffix_refl _, fun h => by cases h⟩
  | some sessionId =>
    refine ⟨hG sessionId rfl, fun live _ => ?_⟩
    cases live with
    | false => exact ⟨List.suffix_cons .., fun h => by cases h⟩
    | true => exact ⟨List.suffix_cons .., fun _ => ⟨sessionId, rfl, List.mem_cons_self ..⟩⟩

/-- The second one: the form token of the session. -/
theorem keeps_csrfToken {G : Guard Access Access.Out} (apiPath : Bool) {sessionId : String}
    (hG : ∀ past', G past' (.sessions (.validate sessionId)) ∧ G past' (.sessions (.csrfToken sessionId))) :
    (Front.sessions (csrfToken apiPath (some sessionId))).Keeps possible G
      (fun r past' => past <:+ past' ∧ ∀ csrf, r = .ok csrf → ⟨.sessions (.csrfToken sessionId), csrf⟩ ∈ past')
      past := by
  refine ⟨(hG _).1, fun live _ => ?_⟩
  cases live with
  | false => exact ⟨List.suffix_cons .., fun csrf h => by cases h⟩
  | true =>
    refine ⟨(hG _).2, fun token _ => ⟨(List.suffix_cons ..).trans (List.suffix_cons ..), fun csrf h => ?_⟩⟩
    cases h
    exact List.mem_cons_self ..

/-- The handler of a form whose token is not that of the session does nothing. -/
theorem uses_handler_of_ne {K : Op → Prop} {adminUser csrf token : String} (htoken : a.submitted = some token)
    (hne : token ≠ csrf) : Fallible.Uses K (a.handler adminUser csrf) := by
  cases a with
  | manageSubmit form formDraws =>
    cases htoken
    show Fallible.Uses K (Api.void (Didicafe.manageSubmit c.token adminUser csrf form formDraws))
    unfold Didicafe.manageSubmit
    rw [if_pos hne]
    trivial
  | settingsSubmit form =>
    cases htoken
    show Fallible.Uses K (Api.void (Didicafe.settingsSubmit adminUser csrf form))
    unfold Didicafe.settingsSubmit
    rw [if_pos hne]
    trivial
  | _ => cases htoken

theorem keeps_handler (csrf : String) {sessionId : String}
    (hcookie : extractCookie header adminCookieName = some sessionId)
    (hlive : ⟨.sessions (.validate sessionId), true⟩ ∈ past)
    (hcsrf : ∀ token, a.submitted = some token → ⟨.sessions (.csrfToken sessionId), csrf⟩ ∈ past) :
    (Front.world (a.handler c.adminUsername csrf).run).Keeps possible (adminGuard c header a) (fun _ _ => True)
      past := by
  have loggedIn (hform : ∀ token, a.submitted = some token → token = csrf) {past' : Past Access Access.Out}
      (hp : past <:+ past') : LoggedIn header a sessionId past' :=
    ⟨hcookie, hp.mem hlive, fun token ht => by rw [hform token ht]; exact hp.mem (hcsrf token ht)⟩
  by_cases hform : ∀ token, a.submitted = some token → token = csrf
  · refine keeps_free (K := fun op => ∃ op', op = .world op') ?_ ?_
    · rintro past' op hp ⟨op', rfl⟩
      exact ⟨sessionId, loggedIn hform hp⟩
    · exact Prog.uses_embed (Prog.uses_of_forall (fun op => ⟨op, rfl⟩) _)
  · obtain ⟨token, hform⟩ := not_forall.1 hform
    obtain ⟨htoken, hne⟩ := Classical.not_imp.1 hform
    refine keeps_free (K := fun _ => False) (fun _ _ _ h => h.elim) ?_
    exact Prog.uses_embed (uses_handler_of_ne htoken hne)

/-- An action that comes with a form token is one whose handler also takes the token of the session. -/
theorem takesCsrf_of_submitted {token : String} (h : a.submitted = some token) : Front.takesCsrf c a = true := by
  cases a with
  | manageSubmit | settingsSubmit => rfl
  | _ => cases h

theorem keeps_admin : (Front.admin c header a).Keeps possible (adminGuard c header a) (fun _ _ => True) past := by
  refine (keeps_adminSession a.apiPath fun _ h => h).bind fun r past₁ ⟨_, hlive⟩ => ?_
  cases r with
  | error r => trivial
  | ok =>
    obtain ⟨sessionId, hcookie, hlive⟩ := hlive rfl
    dsimp only
    rw [hcookie]
    by_cases htakes : Front.takesCsrf c a = true
    · rw [if_pos htakes]
      refine (keeps_csrfToken a.apiPath fun _ => ⟨hcookie, hcookie⟩).bind fun r past₂ ⟨hp₂, hcsrf⟩ => ?_
      cases r with
      | error r => trivial
      | ok csrf =>
        refine (keeps_handler csrf hcookie (hp₂.mem hlive) fun _ _ => hcsrf csrf rfl).bind fun r _ _ => ?_
        cases r <;> trivial
    · rw [if_neg htakes]
      refine (keeps_handler "" hcookie hlive fun _ h => absurd (takesCsrf_of_submitted h) htakes).bind
        fun r _ _ => ?_
      cases r <;> trivial

theorem keeps_redirectToLogin : (Front.redirectToLogin header).Keeps possible (cookieGuard header) (fun _ _ => True)
    past := by
  refine (keeps_adminSession false fun _ h => h).bind fun r _ _ => ?_
  cases r <;> trivial

theorem keeps_logout : (Front.logout c header).Keeps possible (cookieGuard header) (fun _ _ => True) past := by
  have removed : (Front.sessions (removeCookie (extractCookie header adminCookieName))).Keeps possible
      (cookieGuard header) (fun _ _ => True) past := by
    cases hid : extractCookie header adminCookieName with
    | none => trivial
    | some sessionId => exact ⟨hid, fun _ _ => trivial⟩
  exact removed.bind fun _ _ _ => trivial

end Admin

end Didicafe
