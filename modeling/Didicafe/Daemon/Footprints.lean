/-
What each request and job may write at all. The tables and the firewall set are the parts of the world; a program has a
footprint, the parts that its statements and commands may write. Pages and lists have an empty one.
-/
import Didicafe.Model.Admin
import Didicafe.Model.Operations

namespace Didicafe

open Effect

/-! ## Parts -/

inductive Part where
  | plan
  | token
  | session
  | auditLog
  | setting
  | authSet
deriving DecidableEq

/-- The part is in both worlds the same. -/
def Part.Same (w w' : World) : Part → Prop
  | .plan => w'.db.tables.plan = w.db.tables.plan ∧ w'.db.tables.planSeq = w.db.tables.planSeq
  | .token => w'.db.tables.token = w.db.tables.token ∧ w'.db.tables.tokenSeq = w.db.tables.tokenSeq
  | .session => w'.db.tables.session = w.db.tables.session ∧ w'.db.tables.sessionSeq = w.db.tables.sessionSeq
  | .auditLog => w'.db.tables.auditLog = w.db.tables.auditLog ∧ w'.db.tables.auditLogSeq = w.db.tables.auditLogSeq
  | .setting => w'.db.tables.setting = w.db.tables.setting
  | .authSet => w'.set = w.set

theorem Part.Same.refl (p : Part) (w : World) : p.Same w w := by
  cases p <;> simp [Part.Same]

theorem Part.Same.trans {p : Part} {w w' w'' : World} (h : p.Same w w') (h' : p.Same w' w'') : p.Same w w'' := by
  cases p with
  | setting | authSet => exact Eq.trans h' h
  | _ => exact ⟨h'.1.trans h.1, h'.2.trans h.2⟩

/-- The part that a statement writes, if it writes one. -/
def Sql.part : Sql → Option Part
  | .createPlan .. | .updatePlan .. => some .plan
  | .createToken .. | .redeemToken .. | .expireToken _ | .revokeToken _ | .deleteOrphanTokens => some .token
  | .createSession .. | .expireSession _ | .disconnectSession _ | .deleteEndedSessions _ => some .session
  | .auditLog .. => some .auditLog
  | .setSetting .. => some .setting
  | _ => none

def Op.part : Op → Option Part
  | .utcNow => none
  | .nft _ => some .authSet
  | .sql q => q.part

/-- A statement leaves the parts alone that it does not write. -/
theorem Sql.same_run {w : World} {q : Sql} {p : Part} (h : q.part ≠ some p) :
    p.Same w { w with db := (w.db.exec w.now q).2 } := by
  cases q with
  | createPlan | updatePlan | redeemToken | expireToken | revokeToken | deleteOrphanTokens | expireSession
  | disconnectSession | deleteEndedSessions | auditLog | setSetting =>
    cases p <;> first | exact absurd rfl h | simp [Part.Same, Database.exec, Sql.run, Tables.createPlan,
      Tables.updatePlan, Tables.redeemToken, Tables.expireToken, Tables.revokeToken, Tables.deleteOrphanTokens,
      Tables.expireSession, Tables.disconnectSession, Tables.setSessionStatus, Tables.deleteEndedSessions,
      Tables.insertAuditLog, Tables.setSetting]
  | createToken code name planId =>
    simp only [Database.exec, Sql.run, Tables.createToken]
    split
    · exact .refl p w
    · split
      · cases p <;> first | exact absurd rfl h | simp [Part.Same]
      · exact .refl p w
  | createSession tokenId mac ip expiresAt =>
    simp only [Database.exec, Sql.run, Tables.createSession]
    split
    · cases p <;> first | exact absurd rfl h | simp [Part.Same, Tables.setSessionStatus]
    · exact .refl p w
  | _ => exact .refl p w

theorem World.same_exec {w : World} {op : Op} {p : Part} (h : op.part ≠ some p) (fault : Option Err) :
    p.Same w (World.exec fault op w).2 := by
  cases fault with
  | some e =>
    rw [World.exec_some]
    exact .refl p w
  | none =>
    cases op with
    | utcNow => exact .refl p w
    | nft cmd => cases p <;> first | exact absurd rfl h | simp [Part.Same, World.exec]
    | sql q => exact Sql.same_run h

/-! ## Footprints -/

/-- The operation writes none but the given parts. -/
def Op.within (parts : List Part) (op : Op) : Bool := op.part.all fun p => decide (p ∈ parts)

theorem Op.part_ne_of_within {parts : List Part} {op : Op} {p : Part} (h : op.within parts = true) (hp : p ∉ parts) :
    op.part ≠ some p := by
  intro he
  unfold Op.within at h
  rw [he] at h
  exact hp (of_decide_eq_true h)

/-- The program writes none but the given parts. -/
abbrev Within {ε α : Type} (parts : List Part) (x : Fallible ε Op Op.Out α) : Prop :=
  Fallible.Uses (fun op => op.within parts = true) x

namespace Within

variable {ε α β : Type} {parts : List Part}

theorem bind {x : Fallible ε Op Op.Out α} {f : α → Fallible ε Op Op.Out β} (hx : Within parts x)
    (hf : ∀ a, Within parts (f a)) : Within parts (x >>= f) := Fallible.Uses.bind hx hf

theorem op {q : Sql} (h : (Op.sql q).within parts = true) : Within parts (sql q) := uses_sql h

theorem internal {x : App α} (hx : Within parts x) : Within parts (Api.internal x) := uses_internal hx

theorem ignore {x : App α} (hx : Within parts x) : Within parts (Api.ignore x) := uses_ignore hx

theorem void {x : Api α} (hx : Within parts x) : Within parts (Api.void x) := bind hx fun _ => Fallible.Uses.pure ()

theorem mono {parts' : List Part} {x : Fallible ε Op Op.Out α} (hx : Within parts x) (h : parts ⊆ parts') :
    Within parts' x :=
  Prog.Uses.mono hx fun op hop => by
    unfold Op.within at hop ⊢
    cases hp : op.part with
    | none => rfl
    | some p =>
      rw [hp] at hop
      exact decide_eq_true (h (of_decide_eq_true hop))

theorem authorizeClient (mac ip : String) (timeoutSecs : Nat) :
    Within [.authSet] (authorizeClient mac ip timeoutSecs) := uses_authorizeClient (fun _ => rfl) mac ip timeoutSecs

theorem deauthorizeClient (mac ip : String) : Within [.authSet] (deauthorizeClient mac ip) :=
  uses_deauthorizeClient (fun _ => rfl) mac ip

theorem remainingSeconds (s : Session) : s.remainingSeconds.Uses fun op => op.within parts = true :=
  uses_remainingSeconds (K := fun op => op.within parts = true) rfl s

/-! ### Services -/

theorem createSession (tokenId minutes : Int) (mac ip : String) :
    Within [.authSet, .token, .session] (createSession tokenId minutes mac ip) := by
  refine bind (Fallible.Uses.lift (p := utcNow) ⟨rfl, fun _ => trivial⟩) fun now => ?_
  refine bind (x := App.ofExcept _) trivial fun duration => bind (x := App.ofExcept _) trivial fun expiresAt => ?_
  refine bind ((authorizeClient _ _ _).mono (by simp)) fun _ => ?_
  exact bind (op rfl) fun _ => bind (op rfl) fun _ => trivial

theorem migrateSession (tokenId : Int) (newMac newIp : String) :
    Within [.authSet, .session] (migrateSession tokenId newMac newIp) := by
  refine bind (op rfl) fun session => ?_
  cases session with
  | none => trivial
  | some session =>
    refine bind (Fallible.Uses.lift (remainingSeconds _)) fun remaining => ?_
    split
    · trivial
    · refine bind (Fallible.Uses.lift ((deauthorizeClient _ _).mono (by simp))) fun _ => bind (op rfl) fun _ => ?_
      exact bind ((authorizeClient _ _ _).mono (by simp)) fun _ => op rfl

theorem loadManageData (statusFilter : String) (page : Int) : Within parts (loadManageData statusFilter page) := by
  refine bind (internal (bind (op rfl) fun _ => bind (op rfl) fun _ => trivial)) fun page => ?_
  exact bind (internal (op rfl)) fun _ => bind (internal (op rfl)) fun _ => trivial

/-! ### Handlers -/

theorem portalAuth (code mac ip : String) :
    (portalAuth code mac ip).Uses fun op => op.within [.authSet, .token, .session] = true := by
  refine Prog.Uses.bind (bind (op rfl) fun _ => trivial : Within _ (validateToken code)) fun r => ?_
  rcases r with _ | token | token | _
  · trivial
  · exact Prog.Uses.bind (createSession token.id token.durationMinutes mac ip) fun r => by cases r <;> trivial
  · refine Prog.Uses.bind ((migrateSession token.id mac ip).mono (by simp)) fun r => ?_
    cases r <;> trivial
  · trivial

theorem apiCreatePlan (adminUser name : String) (durationMinutes priceAriary : Int) :
    Within [.plan, .auditLog] (apiCreatePlan adminUser name durationMinutes priceAriary) :=
  bind (x := Api.ofExcept _) trivial fun _ => bind (internal (op rfl)) fun _ => bind (ignore (op rfl)) fun _ => trivial

theorem apiUpdatePlan (adminUser : String) (id : Int) (name : String) (durationMinutes priceAriary : Int)
    (active : Bool) :
    Within [.plan, .auditLog] (apiUpdatePlan adminUser id name durationMinutes priceAriary active) := by
  refine bind (x := Api.ofExcept _) trivial fun _ => bind (internal (op rfl)) fun updated => ?_
  show Within _ (ite (updated = false) _ _)
  split
  · trivial
  · exact bind (ignore (op rfl)) fun _ => trivial

theorem apiTogglePlanActive (id : Int) (active : Bool) : Within [.plan] (apiTogglePlanActive id active) := by
  refine bind (internal (op rfl)) fun plan => ?_
  cases plan with
  | none => trivial
  | some plan =>
    refine bind (internal (op rfl)) fun updated => ?_
    show Within _ (ite (updated = false) _ _)
    split <;> trivial

theorem apiDisconnectSession (adminUser : String) (id : Int) :
    Within [.authSet, .session, .auditLog] (apiDisconnectSession adminUser id) :=
  bind (Prog.Uses.bind (uses_disconnect (fun _ => rfl) rfl rfl) fun _ => trivial) fun _ => ignore (op rfl)

theorem manageCreatePlan (adminUser planName : String) (duration price : Option Int) :
    Within [.plan, .auditLog] (manageCreatePlan adminUser planName duration price) := by
  show Within _ (ite _ _ _)
  split
  · refine bind (x := Api.ofExcept _) trivial fun _ => bind (x := Api.ofExcept _) trivial fun _ => ?_
    refine bind (x := Api.ofExcept _) trivial fun _ => bind (internal (op rfl)) fun _ => ?_
    exact bind (ignore (op rfl)) fun _ => trivial
  · trivial

theorem manageGenerateTokens (c : TokenConfig) (adminUser : String) (planId : Int) (count : Option Nat)
    (name : Option String) (draws : Nat → Draws c) :
    Within [.token, .auditLog] (manageGenerateTokens c adminUser planId count name draws) := by
  show Within _ (ite (count.getD 0 > 0) _ _)
  split
  · refine bind (x := Api.ofExcept _) trivial fun _ => bind (internal (op rfl)) fun plan => ?_
    cases plan with
    | none => trivial
    | some plan =>
      show Within _ (ite (plan.active = false) _ _)
      split
      · trivial
      · exact bind (internal (uses_generateTokens (fun _ => rfl) ..)) fun _ => bind (ignore (op rfl)) fun _ => trivial
  · trivial

theorem settingsSubmit (adminUser csrf : String) (form : SettingsForm) :
    Within [.setting, .auditLog] (settingsSubmit adminUser csrf form) := by
  show Within _ (ite _ _ _)
  split
  · trivial
  · refine bind (x := Api.ofExcept _) trivial fun _ => bind (Fallible.Uses.forM (fun x => ?_) _) fun _ => ?_
    · exact internal (op (q := .setSetting x.key x.value) rfl)
    · exact bind (ignore (op rfl)) fun _ => trivial

theorem recordLogin (username : String) (accepted : Bool) (client : Option (String × String)) :
    Within [.authSet, .auditLog] (recordLogin username accepted client) := by
  show Within _ (ite _ _ _)
  split
  · refine bind (ignore (op rfl)) fun _ => ?_
    cases client with
    | none => trivial
    | some client => exact bind (ignore ((authorizeClient _ _ _).mono (by simp))) fun _ => trivial
  · exact bind (ignore (op rfl)) fun _ => trivial

/-! ### Jobs -/

theorem cleanupPass (grace : Int) :
    (cleanupPass grace).Uses fun op => op.within [.authSet, .token, .session] = true := by
  refine Prog.Uses.bind (op (q := .getActiveSessions) rfl) fun r => ?_
  cases r with
  | error e => trivial
  | ok l =>
    refine Prog.Uses.forM (fun s => (remainingSeconds s).bind fun remaining => ?_) l
    split
    · refine Prog.Uses.bind ((deauthorizeClient _ _).mono (by simp)) fun r => ?_
      cases r with
      | error e => trivial
      | ok =>
        refine Prog.Uses.bind (op (q := .expireSession s.id) rfl) fun r => ?_
        cases r with
        | error e => trivial
        | ok => exact Prog.Uses.bind (op (q := .expireToken s.tokenId) rfl) fun _ => trivial
    · trivial

theorem restoreSessions (grace : Int) : Within [.authSet, .token, .session] (restoreSessions grace) := by
  refine bind (op rfl) fun l => Fallible.Uses.lift (Prog.Uses.forM (fun s => ?_) l)
  refine (remainingSeconds s).bind fun remaining => ?_
  split
  · exact Prog.Uses.bind ((authorizeClient _ _ _).mono (by simp)) fun _ => trivial
  · refine Prog.Uses.bind (op (q := .expireSession s.id) rfl) fun r => ?_
    cases r with
    | error e => trivial
    | ok => exact Prog.Uses.bind (op (q := .expireToken s.tokenId) rfl) fun _ => trivial

theorem purgeExpiredSessions (retentionDays : Int) :
    Within [.token, .session] (purgeExpiredSessions retentionDays) :=
  bind (op rfl) fun _ => bind (op rfl) fun _ => trivial

end Within

/-- What an admin's action may write. -/
def AdminAction.footprint {c : TokenConfig} : AdminAction c → List Part
  | .createPlan .. | .updatePlan .. => [.plan, .auditLog]
  | .togglePlanActive .. => [.plan]
  | .generateTokens .. => [.token]
  | .revokeToken _ => [.token, .auditLog]
  | .disconnectSession _ => [.authSet, .session, .auditLog]
  | .manageSubmit form _ =>
    if form.planName.isSome then [.plan, .auditLog] else if form.planId.isSome then [.token, .auditLog] else []
  | .settingsSubmit _ => [.setting, .auditLog]
  | .listPlans | .listTokens _ | .listSessions | .stats | .weeklyStats | .dashboard | .managePage .. => []

namespace Within

theorem manageSubmit (c : TokenConfig) (adminUser csrf : String) (form : ManageForm) (draws : Nat → Draws c) :
    Within (AdminAction.manageSubmit form draws).footprint (manageSubmit c adminUser csrf form draws) := by
  have page (parts : List Part) (message : Option I18nMessage) : Within parts (do
      let data ← Didicafe.loadManageData "current" 1
      return (data, message) : Api (ManageData × Option I18nMessage)) :=
    bind (.loadManageData "current" 1) fun _ => trivial
  unfold Didicafe.manageSubmit
  by_cases hcsrf : form.csrfToken ≠ csrf
  · rw [if_pos hcsrf]
    trivial
  rw [if_neg hcsrf, AdminAction.footprint]
  cases form.planName with
  | some planName => exact bind (manageCreatePlan ..) fun _ => page _ _
  | none =>
    cases form.planId with
    | some planId => exact bind (manageGenerateTokens ..) fun _ => page _ _
    | none => exact bind (x := pure none) trivial fun _ => page _ _

theorem handler {c : TokenConfig} (adminUser csrf : String) (a : AdminAction c) :
    Within a.footprint (a.handler adminUser csrf) := by
  cases a with
  | listPlans => exact (internal (op rfl)).void
  | createPlan => exact (apiCreatePlan ..).void
  | updatePlan => exact (apiUpdatePlan ..).void
  | togglePlanActive => exact (apiTogglePlanActive ..).void
  | listTokens status => exact void (uses_apiListTokens (K := fun op => op.within [] = true) (fun _ => rfl) status)
  | generateTokens name planId count draws =>
    exact void (uses_apiGenerateTokens (K := fun op => op.within [.token] = true) rfl (fun _ => rfl) c count draws)
  | revokeToken id => exact uses_apiRevokeToken rfl rfl rfl
  | listSessions => exact (internal (op rfl)).void
  | disconnectSession id => exact apiDisconnectSession adminUser id
  | stats => exact (internal (uses_getDailyStats rfl rfl rfl)).void
  | weeklyStats => exact (internal (op rfl)).void
  | dashboard =>
    exact (bind (internal (uses_getDailyStats rfl rfl rfl)) fun _ => bind (internal (op rfl)) fun _ => trivial :
      Within [] dashboard).void
  | managePage => exact (loadManageData ..).void
  | manageSubmit => exact (manageSubmit ..).void
  | settingsSubmit => exact (settingsSubmit ..).void

end Within

end Didicafe
