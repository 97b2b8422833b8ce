/-
What a request has to have behind it, in every run of the front desk. A posted code reaches the database only with a
form that was made for the same client less than ten minutes before and not used since, then with an attempt that the
limiter counts, and with the format of a code; and an admin's request acts only with a session that a login with the
right credentials has stored.
-/
import Didicafe.Daemon.House
import Didicafe.Front.Mediation
import Didicafe.Token.Redeemable

namespace Didicafe

open Effect Runs

variable {c : FrontConfig} {s : FrontJournal c} {log post pre : List (FrontEvent c)} {e : FrontEvent c} {op : Op}

/-! ## Where forms and sessions come from -/

/-- The form token was made by a request of a client that had the MAC address, as far as the case of letters goes, it
has not expired, and no form has been checked against it and no other one made for the address since. -/
structure MadeFor (c : FrontConfig) (mac token : String) (clock : Nat) (log : List (FrontEvent c)) : Prop where
  made : ∃ post e pre createdAt, log = post ++ e :: pre ∧
    e.op = .csrf .portal (.write (c.lower mac) token createdAt) ∧ clock - createdAt ≤ csrfTokenTtl ∧
    (∀ x ∈ post, ¬ x.op.Replaces .portal (c.lower mac)) ∧
    ∃ ip mac', Found c ip mac' (pastOf e.thread pre) ∧ isValidMac mac' = true ∧ c.lower mac' = c.lower mac

/-- The session was stored by a login with the right credentials, it ends a session timeout after the clock that the
login has read, and it has not been removed since. -/
structure GrantedBy (c : FrontConfig) (ip : IpAddr) (form : LoginForm) (sessionId : String) (data : SessionData)
    (log : List (FrontEvent c)) : Prop where
  granted : ∃ post e pre header draws, log = post ++ e :: pre ∧ e.tag = .loginSubmit ip header form draws ∧
    e.op = .sessions (.insert sessionId data) ∧ Credentials c ip form (pastOf e.thread pre) ∧
    (∃ r ∈ pre, r.thread = e.thread ∧ r.op = .sessions .now ∧
      data.expiresAt = r.before.clock + fromSecs c.sessionTimeoutSeconds) ∧
    ∀ x ∈ post, x.op ≠ .sessions (.remove sessionId)

namespace Traced

theorem guard (h : Traced s) (hlog : s.log = post ++ e :: pre) : deskGuard c e.tag (pastOf e.thread pre) e.op :=
  Each.of_split (P := fun e pre => deskGuard c e.tag (pastOf e.thread pre) e.op) (hlog ▸ h.follows.kept)

/-- Only a page of the portal makes a form token for it, and only for the client it is for. -/
theorem found_of_write (h : Traced s) (hlog : s.log = post ++ e :: pre) {key token : String} {createdAt : Nat}
    (hop : e.op = .csrf .portal (.write key token createdAt)) :
    ∃ ip mac, Found c ip mac (pastOf e.thread pre) ∧ isValidMac mac = true ∧ key = c.lower mac := by
  have hguard := h.guard hlog
  rw [hop] at hguard
  cases htag : e.tag with
  | portalPage ip draws => rw [htag] at hguard; exact ⟨ip, hguard⟩
  | portalAuth ip form draws => rw [htag] at hguard; exact ⟨ip, hguard⟩
  | _ => rw [htag] at hguard; exact hguard.elim

/-- A form that was found to be a client's own was made for it, and had not been checked before. -/
theorem madeFor_of_vouched (h : Traced s) (hlog : s.log = post ++ e :: pre) {mac submitted : String}
    {P : Past Access Access.Out → Prop}
    (hv : After P ⟨.csrf .portal (.validate (c.lower mac) submitted), true⟩ (pastOf e.thread pre)) :
    ∃ mid v pre', pre = mid ++ v :: pre' ∧ v.thread = e.thread ∧
      v.op = .csrf .portal (.validate (c.lower mac) submitted) ∧ P (pastOf v.thread pre') ∧
      MadeFor c mac submitted v.before.clock pre' := by
  obtain ⟨past, hpast, hP⟩ := hv
  obtain ⟨mid, v, pre', rfl, hthread, hsame, rfl⟩ := Workshop.split_pastOf hpast
  have hv : s.log = (post ++ e :: mid) ++ v :: pre' := by rw [hlog]; simp
  have haccepted : Accepted v pre' := Each.of_split (hv ▸ h.accepted)
  obtain ⟨createdAt, ⟨mid', w, pre'', rfl, hop, hkept⟩, hage⟩ := haccepted.form _ _ _ hsame.symm
  have hw : s.log = (post ++ e :: (mid ++ v :: mid')) ++ w :: pre'' := by rw [hlog]; simp
  obtain ⟨ip, mac', hfound, hvalid, hkey⟩ := h.found_of_write hw hop
  exact ⟨mid, v, _, rfl, hthread, (congrArg Sigma.fst hsame).symm, hthread ▸ hP, mid', w, pre'', createdAt, rfl, hop,
    hage, hkept, ip, mac', hfound, hvalid, hkey.symm⟩

/-- A session that stands was stored by a login. -/
theorem grantedBy_of_standing (h : Traced s) {post : List (FrontEvent c)} (hlog : s.log = post ++ pre)
    {sessionId : String} {data : SessionData} (hs : Standing sessionId data pre) :
    ∃ ip form, GrantedBy c ip form sessionId data pre := by
  obtain ⟨post', w, pre', rfl, hop, hpost⟩ := hs
  have hw : s.log = (post ++ post') ++ w :: pre' := by rw [hlog]; simp
  have hguard := h.guard hw
  rw [hop] at hguard
  obtain ⟨ip, header, form, draws, htag, hcred, now, hnow, hexp⟩ := login_of_insert hguard
  obtain ⟨r, hr, hthread, hread⟩ := Workshop.mem_pastOf.1 hnow
  have hread : r.op = .sessions .now ∧ now = r.before.clock := by
    -- the reading is the clock of its own moment
    obtain ⟨env, hanswer⟩ := h.follows.answers r (by rw [hlog]; simp [hr])
    obtain ⟨thread, tag, before, op, answer⟩ := r
    cases hread
    exact ⟨rfl, hanswer⟩
  refine ⟨ip, form, post', w, pre', header, draws, rfl, htag, hop, hcred, ⟨r, hr, hthread, hread.1, ?_⟩, hpost⟩
  rw [← hread.2, ← hexp]

end Traced

/-! ## A small desk -/

/-- The shipped limits and texts, with ASCII letters only. -/
def FrontConfig.small : FrontConfig where
  token := CafeConfig.small.token
  portal := ⟨"wifi.didicafe", "admin.wifi.didicafe", "DidiCafe", "", "#b45309", "", "", ""⟩
  rateLimit := ⟨5, 60, 10, 900⟩
  adminUsername := "admin"
  passwordHash := "hash"
  sessionTimeoutSeconds := 3600
  tlsEnabled := true
  upper := asciiTable
  lower := id

/-- Nothing fails, one neighbour is known, and every password is right. -/
def quiet : Surroundings where
  fault _ := none
  procNetArp := some "IP address HW type\n10.10.0.5 0x1 0x2 02:00:00:00:00:05 * wlan0\n"
  ipNeigh _ := none
  arpCommand := none
  verifies _ _ := true

theorem three_le_charset : 3 ≤ sessionCharset.length := by decide

def repeated : FrontDraws :=
  ⟨fun _ => Fin.castLE three_le_charset 0, fun _ => Fin.castLE three_le_charset 1,
    fun _ => Fin.castLE three_le_charset 2⟩

def guestIp : IpAddr := .v4 0x0A0A0005#32

def smallOpening : FrontJournal .small := ⟨⟨.new FrontConfig.small.rateLimit 3600 0 World.opening, []⟩, []⟩

/-- Request `i` performs as many operations. -/
def advances (i count : Nat) : List (FrontTurn .small) := List.replicate count (.advance i quiet)

/-- The last event of a run that can be computed. -/
theorem reach_last (turns : List (FrontTurn .small)) {p : FrontEvent .small → Bool}
    (h : ((frontRuns .small).trace smallOpening turns).any (fun s => s.log.head?.any p) = true) :
    ∃ s e pre, Reach (frontRuns .small) Free s ∧ s.log = [] ++ e :: pre ∧ p e = true := by
  obtain ⟨s, hs, hlast⟩ := (Option.any_eq_true _ _).1 h
  obtain ⟨e, he, hp⟩ := (Option.any_eq_true _ _).1 hlast
  obtain ⟨pre, hlog⟩ := List.head?_eq_some_iff.1 he
  have opening : Reach (frontRuns .small) Free smallOpening := .start ⟨⟨0, World.opening, rfl⟩, rfl, rfl⟩
  exact ⟨s, e, pre, Machine.reach_trace opening hs, hlog, hp⟩

/-! ## The portal form -/

/-- In every run, whatever order the requests take turns in and whatever else happens to the database: a posted form
does something other than reading settings only for a client whose MAC address is known, then with a form made for that
address that no other request has used, then after the limiter has let it pass, and for a code of the right format; and
what it does is the lookup of that code, or serves this client with a token that the lookup has found. -/
theorem form_mediated (h : Reach (frontRuns c) Free s) (hlog : s.log = post ++ e :: pre) {ip : IpAddr}
    {form : AuthForm} {draws : FrontDraws} (htag : e.tag = .portalAuth ip form draws) (hop : e.op = .world op)
    (hne : op ≠ .sql .getAllSettings) :
    ∃ mac, Entitled c ip form mac (pastOf e.thread pre) ∧
      (∃ mid v pre', pre = mid ++ v :: pre' ∧ v.thread = e.thread ∧
        v.op = .csrf .portal (.validate (c.lower mac) form.csrfToken) ∧ Found c ip mac (pastOf v.thread pre') ∧
        MadeFor c mac form.csrfToken v.before.clock pre') ∧
      (op = .sql (.getTokenByCode (form.code c)) ∨
        ∃ token, LookedUp (form.code c) token (pastOf e.thread pre) ∧
          Serves mac ip.display token (pastOf e.thread pre) op) := by
  have traced := traced_of_reach h
  have hguard := traced.guard hlog
  rw [htag, hop] at hguard
  rcases hguard with hset | ⟨mac, entitled, hdoes⟩
  · exact absurd hset hne
  · exact ⟨mac, entitled, traced.madeFor_of_vouched hlog entitled.passed.vouched, hdoes⟩

def visitForm : AuthForm := ⟨"CAFE-AAAA-AAAA", "AAAAAAAAAAAAAAAAAAAAAAAAAAAAAAAA"⟩

/-- A guest gets the page and posts a code, up to the lookup. -/
def visit : List (FrontTurn .small) :=
  .start (.portalPage guestIp repeated) :: advances 0 4 ++
    .start (.portalAuth guestIp visitForm repeated) :: advances 1 7

/-- The form a request posts. -/
def FrontCall.posted : FrontCall c → Option (IpAddr × AuthForm)
  | .portalAuth ip form _ => some (ip, form)
  | _ => none

theorem FrontCall.posted_some {k : FrontCall c} {ip : IpAddr} {form : AuthForm} (h : k.posted = some (ip, form)) :
    ∃ draws, k = .portalAuth ip form draws := by
  cases k with
  | portalAuth ip form draws => cases h; exact ⟨draws, rfl⟩
  | _ => cases h

theorem form_mediated_guest : ∃ (e : FrontEvent .small) (pre : List (FrontEvent .small)) (mac : String),
    e.op = .world (.sql (.getTokenByCode "CAFE-AAAA-AAAA")) ∧
      Entitled .small guestIp visitForm mac (pastOf e.thread pre) ∧
      ∃ v pre', MadeFor .small mac visitForm.csrfToken v.before.clock pre' ∧ v ∈ pre := by
  obtain ⟨s, e, pre, hs, hlog, hp⟩ := reach_last visit (p := fun e =>
    e.tag.posted = some (guestIp, visitForm) ∧ e.op = .world (.sql (.getTokenByCode "CAFE-AAAA-AAAA")))
    (by decide +kernel)
  obtain ⟨htag, hop⟩ := of_decide_eq_true hp
  obtain ⟨draws, htag⟩ := FrontCall.posted_some htag
  obtain ⟨mac, entitled, ⟨mid, v, pre', rfl, -, -, -, made⟩, -⟩ := form_mediated hs hlog htag hop (by decide)
  exact ⟨e, _, mac, hop, entitled, v, pre', made, List.mem_append_right _ (List.mem_cons_self ..)⟩

/-! ## Admin requests -/

/-- In every run, an admin's request does something to the database or the firewall only when it has shown, before, the
cookie of a session that was there: one that a login with the right credentials had stored less than the session timeout
before, and that nobody had removed. A form among these requests does so only with the form token that was stored with a
session of this kind and name; or with an empty one, if the session was removed just before the token was read. -/
theorem action_mediated (h : Reach (frontRuns c) Free s) (hlog : s.log = post ++ e :: pre) {header : Option String}
    {a : AdminAction c.token} (htag : e.tag = .admin header a) (hop : e.op = .world op) :
    ∃ sessionId, LoggedIn header a sessionId (pastOf e.thread pre) ∧
      (∃ mid v pre', pre = mid ++ v :: pre' ∧ v.thread = e.thread ∧ v.op = .sessions (.validate sessionId) ∧
        ∃ ip form data, GrantedBy c ip form sessionId data pre' ∧ v.before.clock < data.expiresAt) ∧
      ∀ token, a.submitted = some token → ∃ mid v pre', pre = mid ++ v :: pre' ∧ v.thread = e.thread ∧
        v.op = .sessions (.csrfToken sessionId) ∧
        ((∃ ip form data, GrantedBy c ip form sessionId data pre' ∧ data.csrfToken = token) ∨
          v.before.adminSessions.sessions.lookup sessionId = none ∧ token = "") := by
  have traced := traced_of_reach h
  have hguard := traced.guard hlog
  rw [htag, hop] at hguard
  obtain ⟨sessionId, loggedIn⟩ := hguard
  -- what the request has learnt, at the moment when it did
  have learnt {x : Sigma Access.Out} (hx : x ∈ pastOf e.thread pre) :
      ∃ mid v pre', pre = mid ++ v :: pre' ∧ v.thread = e.thread ∧ x = ⟨v.op, v.answer⟩ ∧ Accepted v pre' ∧
        s.log = (post ++ e :: mid ++ [v]) ++ pre' := by
    obtain ⟨v, hmem, hthread, hsame⟩ := Workshop.mem_pastOf.1 hx
    obtain ⟨mid, pre', rfl⟩ := List.append_of_mem hmem
    have hv : s.log = (post ++ e :: mid) ++ v :: pre' := by rw [hlog]; simp
    exact ⟨mid, v, pre', rfl, hthread, hsame, Each.of_split (hv ▸ traced.accepted), by rw [hv]; simp⟩
  refine ⟨sessionId, loggedIn, ?_, fun token htoken => ?_⟩
  · obtain ⟨mid, v, pre', rfl, hthread, hsame, haccepted, hv⟩ := learnt loggedIn.live
    obtain ⟨data, standing, hlive⟩ := haccepted.session sessionId hsame.symm
    obtain ⟨ip, form, granted⟩ := traced.grantedBy_of_standing hv standing
    exact ⟨mid, v, pre', rfl, hthread, (congrArg Sigma.fst hsame).symm, ip, form, data, granted, hlive⟩
  · obtain ⟨mid, v, pre', rfl, hthread, hsame, haccepted, hv⟩ := learnt (loggedIn.form token htoken)
    refine ⟨mid, v, pre', rfl, hthread, (congrArg Sigma.fst hsame).symm, ?_⟩
    refine (haccepted.token sessionId token hsame.symm).imp_left fun ⟨data, standing, htok⟩ => ?_
    obtain ⟨ip, form, granted⟩ := traced.grantedBy_of_standing hv standing
    exact ⟨ip, form, data, granted, htok⟩

def loginForm : LoginForm := ⟨"admin", "secret", "AAAAAAAAAAAAAAAAAAAAAAAAAAAAAAAA"⟩

def managerCookies : Option String := some "theme=dark; didicafe_admin=BBBBBBBBBBBBBBBBBBBBBBBBBBBBBBBB"

def planForm : ManageForm := ⟨none, none, none, some 60, some 500, some "1 h", "CCCCCCCCCCCCCCCCCCCCCCCCCCCCCCCC"⟩

/-- The manager logs in and creates a plan. -/
def managing : List (FrontTurn .small) :=
  .start (.loginPage guestIp repeated) :: advances 0 4 ++
    .start (.loginSubmit guestIp none loginForm repeated) :: advances 1 12 ++
    .start (.admin managerCookies (.manageSubmit planForm inTurn)) :: advances 2 4

/-- The cookies and the form token that an admin's request comes with. -/
def FrontCall.adminPapers : FrontCall c → Option (Option String × Option String)
  | .admin header a => some (header, a.submitted)
  | _ => none

theorem FrontCall.adminPapers_some {k : FrontCall c} {header submitted : Option String}
    (h : k.adminPapers = some (header, submitted)) : ∃ a, k = .admin header a ∧ a.submitted = submitted := by
  cases k with
  | admin header a => cases h; exact ⟨a, rfl, rfl⟩
  | _ => cases h

theorem action_mediated_manager : ∃ (e : FrontEvent .small) (sessionId : String),
    e.op = .world (.sql (.createPlan "1 h" 60 500)) ∧
      extractCookie managerCookies adminCookieName = some sessionId ∧
      (∃ pre v ip form data, GrantedBy .small ip form sessionId data pre ∧ (v : FrontEvent .small).op =
        .sessions (.validate sessionId) ∧ v.before.clock < data.expiresAt) ∧
      ∃ pre ip form data, GrantedBy .small ip form sessionId data pre ∧ data.csrfToken = planForm.csrfToken := by
  obtain ⟨s, e, pre, hs, hlog, hp⟩ := reach_last managing (p := fun e =>
    e.tag.adminPapers = some (managerCookies, some planForm.csrfToken) ∧
      e.op = .world (.sql (.createPlan "1 h" 60 500))) (by decide +kernel)
  obtain ⟨htag, hop⟩ := of_decide_eq_true hp
  obtain ⟨a, htag, hform⟩ := FrontCall.adminPapers_some htag
  obtain ⟨sessionId, loggedIn, ⟨mid, v, pre', -, -, hv, ip, form, data, granted, hlive⟩, htoken⟩ :=
    action_mediated hs hlog htag hop
  obtain ⟨mid', v', pre'', -, -, -, ⟨ip', form', data', granted', hsame⟩ | ⟨-, hempty⟩⟩ := htoken _ hform
  · exact ⟨e, sessionId, hop, loggedIn.cookie, ⟨pre', v, ip, form, data, granted, hv, hlive⟩,
      pre'', ip', form', data', granted', hsame⟩
  · exact absurd hempty (by decide)

end Didicafe
