/-
The audit trail of the admin's requests. Most handlers write an entry after they have changed a table; the switch of a
plan and the token generation of the REST API do not. A handler is not a transaction either: a request that fails after
its first change is answered with an error although a table has changed.
-/
import Didicafe.Model.Operations
import Didicafe.Store.Ledger
import Didicafe.Token.Batches

namespace Didicafe

open Effect

/-- The plans, tokens, sessions and settings are as before. -/
structure Untouched (t t' : Tables) : Prop where
  plan : t'.plan = t.plan
  token : t'.token = t.token
  session : t'.session = t.session
  setting : t'.setting = t.setting

theorem Untouched.refl (t : Tables) : Untouched t t := ⟨rfl, rfl, rfl, rfl⟩

/-- One entry more, by the admin and for the action. -/
def Audited (adminUser : String) (action : Option String) (t t' : Tables) : Prop :=
  ∃ e : AuditLogEntry, t'.auditLog = t.auditLog ++ [e] ∧ e.adminUser = adminUser ∧ action = some e.action

/-- A request that succeeds and changes one of the tables is audited, and a request that is answered with an error
changes none of them. -/
structure AuditComplete {ε α : Type} (adminUser : String) (action : Option String) (t : Tables)
    (r : Except ε α × World) : Prop where
  audited : r.1.isOk → ¬ Untouched t r.2.db.tables → Audited adminUser action t r.2.db.tables
  rejected : ¬ r.1.isOk → Untouched t r.2.db.tables

variable {ε α β : Type} {adminUser : String} {action : Option String} {env : Op → Option Err} {w w' : World}
  {t : Tables}

namespace AuditComplete

variable {r : Except ε α × World}

theorem of_untouched (h : Untouched t r.2.db.tables) : AuditComplete adminUser action t r :=
  ⟨fun _ hne => absurd h hne, fun _ => h⟩

theorem iff_of_error (hr : ¬ r.1.isOk) : AuditComplete adminUser action t r ↔ Untouched t r.2.db.tables :=
  ⟨fun h => h.rejected hr, of_untouched⟩

/-- Without an entry, nothing may have changed. -/
theorem iff_of_log (hlog : r.2.db.tables.auditLog = t.auditLog) :
    AuditComplete adminUser action t r ↔ Untouched t r.2.db.tables := by
  refine ⟨fun h => ?_, of_untouched⟩
  by_cases hok : r.1.isOk
  · by_contra hne
    obtain ⟨e, he, -⟩ := h.audited hok hne
    exact List.cons_ne_nil e [] (List.self_eq_append_right.1 (hlog.symm.trans he))
  · exact h.rejected hok

end AuditComplete

/-! ## What leaves the database alone -/

/-- The program leaves the database as it is. -/
def Reads (env : Op → Option Err) (x : Fallible ε Op Op.Out α) : Prop :=
  ∀ w, (Fallible.exec (failing env) x w).2.db = w.db

/-- The operation leaves the database as it is, failed or not. -/
def Op.Reads (env : Op → Option Err) (op : Op) : Prop := ∀ w, (failing env op w).2.db = w.db

theorem Op.Reads.nft (cmd : NftCmd) : Op.Reads env (.nft cmd) := by
  intro w
  simp only [failing, World.exec]
  cases env (.nft cmd) <;> rfl

theorem Op.Reads.query {q : Sql} (hq : ∀ now t, (q.run now t).2 = t) : Op.Reads env (.sql q) := by
  intro w
  show (Fallible.exec (failing env) (Didicafe.sql q) w).2.db = w.db
  cases he : env (.sql q) with
  | some e => rw [exec_sql_of_some w he]
  | none => rw [exec_query w he (Prod.ext rfl (hq w.now w.db.tables))]

namespace Reads

theorem of_uses {x : Fallible ε Op Op.Out α} (h : Fallible.Uses (Op.Reads env) x) : Reads env x :=
  fun w => Prog.Uses.run (I := fun w' => w'.db = w.db) (fun w' _ hw hop => (hop w').trans hw) h rfl

theorem internal_query {q : Sql} (hq : ∀ now t, (q.run now t).2 = t) : Reads env (Api.internal (sql q)) :=
  of_uses (uses_internal (uses_sql (.query hq)))

theorem deauthorizeClient (mac ip : String) : Reads env (deauthorizeClient mac ip) :=
  of_uses (uses_deauthorizeClient .nft mac ip)

theorem authorizeClient (mac ip : String) (timeoutSecs : Nat) : Reads env (authorizeClient mac ip timeoutSecs) :=
  of_uses (uses_authorizeClient .nft mac ip timeoutSecs)

/-- A program that reads only is audited well. -/
theorem complete {x : Fallible ε Op Op.Out α} (hx : Reads env x) (w : World) :
    AuditComplete adminUser action w.db.tables (Fallible.exec (failing env) x w) :=
  .of_untouched (by rw [hx w]; exact .refl _)

end Reads

/-! ## Entries -/

/-- The audit insert does not fail. -/
def AuditWorks (env : Op → Option Err) : Prop :=
  ∀ adminUser action targetType targetId detail,
    env (.sql (.auditLog adminUser action targetType targetId detail)) = none

section Entry

variable {name : String} {targetType : Option String} {targetId : Option Int} {detail : Option String}

theorem exec_audit (haudit : AuditWorks env) (w : World) :
    Fallible.exec (failing env) (Api.ignore (sql (.auditLog adminUser name targetType targetId detail))) w =
      (.ok (), { w with db := (w.db.exec w.now (.auditLog adminUser name targetType targetId detail)).2 }) := by
  rw [Api.exec_ignore, exec_sql_of_none w (haudit ..)]

theorem audited_insertAuditLog {t t' : Tables} (hlog : t'.auditLog = t.auditLog) (now : Int) :
    Audited adminUser (some name) t (t'.insertAuditLog now adminUser name targetType targetId detail) :=
  ⟨_, congrArg (· ++ [_]) hlog, rfl, rfl⟩

/-- A handler that ends with its entry is audited, if nothing was written to the log before. -/
theorem complete_entry (haudit : AuditWorks env) (hlog : w.db.tables.auditLog = t.auditLog) (b : β) :
    AuditComplete adminUser (some name) t (Fallible.exec (failing env) (do
      Api.ignore (sql (.auditLog adminUser name targetType targetId detail))
      return b) w) := by
  rw [Fallible.exec_bind_ok _ (exec_audit haudit w), Fallible.exec_pure]
  exact ⟨fun _ _ => audited_insertAuditLog hlog w.now, fun hno => absurd rfl hno⟩

end Entry

/-- A handler that stops at its first step leaves the tables alone. -/
theorem complete_stop {x : Fallible ε Op Op.Out α} {e : ε} (hx : Fallible.exec (failing env) x w = (.error e, w))
    (f : α → Fallible ε Op Op.Out β) :
    AuditComplete adminUser action w.db.tables (Fallible.exec (failing env) (x >>= f) w) := by
  rw [Fallible.exec_bind_error _ hx]
  exact .of_untouched (.refl _)

/-- Only the body of the answer is dropped. -/
theorem complete_void {x : Api α} : AuditComplete adminUser action t (Fallible.exec (failing env) (Api.void x) w) ↔
    AuditComplete adminUser action t (Fallible.exec (failing env) x w) := by
  unfold Api.void
  rw [Fallible.exec_bind]
  cases hr : Fallible.exec (failing env) x w with
  | mk r w₁ =>
    cases r with
    | error e => exact ⟨fun h => ⟨h.audited, h.rejected⟩, fun h => ⟨h.audited, h.rejected⟩⟩
    | ok a => exact ⟨fun h => ⟨h.audited, h.rejected⟩, fun h => ⟨h.audited, h.rejected⟩⟩

/-! ## Plans -/

section Plans

variable {name : String} {durationMinutes priceAriary : Int} {active : Bool} {id : Int}

theorem complete_apiCreatePlan (haudit : AuditWorks env) : AuditComplete adminUser (some "create_plan") w.db.tables
    (Fallible.exec (failing env) (apiCreatePlan adminUser name durationMinutes priceAriary) w) := by
  unfold apiCreatePlan
  cases hv : validatePlanInput name durationMinutes priceAriary with
  | error e =>
    exact complete_stop (Api.exec_ofExcept ..) _
  | ok u =>
    rw [Fallible.exec_bind_ok _ (Api.exec_ofExcept ..)]
    cases he : env (.sql (.createPlan name durationMinutes priceAriary)) with
    | some e =>
      exact complete_stop (Api.exec_internal_of_some w he) _
    | none =>
      rw [Fallible.exec_bind_ok _ (Api.exec_internal_of_none w he)]
      refine complete_entry haudit ?_ _
      rfl

/-- An edit of a plan changes nothing if there is no such plan, or if it writes what is there. -/
theorem Tables.updatePlan_self (hs : t.Schema) (h : ∀ p, t.planById id = some p →
    p.name = name ∧ p.durationMinutes = durationMinutes ∧ p.priceAriary = priceAriary ∧ p.active = active) :
    t.updatePlan id name durationMinutes priceAriary active = t := by
  unfold updatePlan
  rw [Table.updateWhere_self]
  intro p hp hid
  obtain ⟨rfl, rfl, rfl, rfl⟩ := h p ((Table.find_key_iff hs.planId).2 ⟨hp, beq_iff_eq.1 hid⟩)
  rfl

theorem complete_apiUpdatePlan (haudit : AuditWorks env) : AuditComplete adminUser (some "update_plan") w.db.tables
    (Fallible.exec (failing env) (apiUpdatePlan adminUser id name durationMinutes priceAriary active) w) := by
  unfold apiUpdatePlan
  cases hv : validatePlanInput name durationMinutes priceAriary with
  | error e =>
    exact complete_stop (Api.exec_ofExcept ..) _
  | ok u =>
    rw [Fallible.exec_bind_ok _ (Api.exec_ofExcept ..)]
    cases he : env (.sql (.updatePlan id name durationMinutes priceAriary active)) with
    | some e =>
      exact complete_stop (Api.exec_internal_of_some w he) _
    | none =>
      rw [Fallible.exec_bind_ok _ (Api.exec_internal_of_none w he)]
      cases hp : w.db.tables.planById id with
      | none =>
        refine .of_untouched ?_
        show Untouched _ (w.db.tables.updatePlan id name durationMinutes priceAriary active)
        rw [Tables.updatePlan_self w.db.schema (by rw [hp]; nofun)]
        exact .refl _
      | some p =>
        refine complete_entry haudit ?_ _
        rfl

/-- An edit that is carried out changes the table unless the plan is so already. -/
theorem untouched_updatePlan {p : Plan} (hs : t.Schema) (hp : t.planById id = some p) :
    Untouched t (t.updatePlan id p.name p.durationMinutes p.priceAriary active) ↔ p.active = active := by
  constructor
  · intro h
    have hplan : (t.updatePlan id p.name p.durationMinutes p.priceAriary active).planById id = t.planById id := by
      unfold Tables.planById
      rw [h.plan]
    rw [Tables.planById_updatePlan_self, hp] at hplan
    exact (congrArg Plan.active (Option.some.inj hplan)).symm
  · intro hact
    rw [Tables.updatePlan_self hs fun q hq => ?_]
    · exact .refl t
    · cases hp.symm.trans hq
      exact ⟨rfl, rfl, rfl, hact⟩

/-- The switch is carried out and changes the plan. -/
def Switches (env : Op → Option Err) (w : World) (id : Int) (active : Bool) : Prop :=
  env (.sql (.getPlan id)) = none ∧ ∃ p, w.db.tables.planById id = some p ∧ p.active ≠ active ∧
    env (.sql (.updatePlan id p.name p.durationMinutes p.priceAriary active)) = none

/-- The switch of a plan writes no entry. -/
theorem complete_apiTogglePlanActive : AuditComplete adminUser action w.db.tables
    (Fallible.exec (failing env) (apiTogglePlanActive id active) w) ↔ ¬ Switches env w id active := by
  unfold apiTogglePlanActive Switches
  cases hg : env (.sql (.getPlan id)) with
  | some e =>
    exact iff_of_true (complete_stop (Api.exec_internal_of_some w hg) _) (by simp)
  | none =>
    rw [Fallible.exec_bind_ok _ (Api.exec_internal_query w hg rfl)]
    cases hp : w.db.tables.planById id with
    | none => exact iff_of_true (.of_untouched (.refl _)) (by simp)
    | some p =>
      cases he : env (.sql (.updatePlan id p.name p.durationMinutes p.priceAriary active)) with
      | some e =>
        exact iff_of_true (complete_stop (Api.exec_internal_of_some w he) _) (by simp [he])
      | none =>
        show AuditComplete _ _ _ (Fallible.exec (failing env) (Api.internal (sql (.updatePlan ..)) >>= _) w) ↔ _
        rw [Fallible.exec_bind_ok _ (Api.exec_internal_of_none w he)]
        show AuditComplete _ _ _ (Fallible.exec (failing env)
          (if (w.db.tables.planById id).isSome = false then _ else pure (id, active)) _) ↔ _
        rw [hp]
        refine (AuditComplete.iff_of_log ?_).trans ((untouched_updatePlan w.db.schema hp).trans ?_)
        · rfl
        · simp [he]

end Plans

/-! ## Tokens and sessions -/

section Tokens

variable {c : TokenConfig} {planId id : Int} {count : Nat} {draws : Nat → Draws c}

/-- The plan can be sold, and the first of the codes is inserted. -/
def BatchStarts (env : Op → Option Err) (w : World) (planId : Int) (name : String) (codes : List String) : Prop :=
  env (.sql (.getPlan planId)) = none ∧ (∃ p, w.db.tables.planById planId = some p ∧ p.active = true) ∧
    ∃ code ∈ codes.head?, Insertable env planId (some name) w.db.tables code

theorem BatchRun.untouched {name : Option String} {codes : List String} {ok : Bool} {rows : List TokenRow}
    (h : BatchRun env planId name w codes ok w' rows) :
    w'.db.tables.auditLog = w.db.tables.auditLog ∧
      (Untouched w.db.tables w'.db.tables ↔ ¬ ∃ code ∈ codes.head?, Insertable env planId name w.db.tables code) := by
  obtain ⟨seq, htab⟩ := h.tables
  rw [htab]
  refine ⟨rfl, Iff.trans ⟨fun hu => ?_, fun hrows => ?_⟩ (h.rows_iff.trans (by simp))⟩
  · exact List.self_eq_append_right.1 hu.token.symm
  · rw [hrows]
    exact ⟨rfl, List.append_nil _, rfl, rfl⟩

/-- The generation of the REST API writes no entry, and a batch that fails keeps its first codes. -/
theorem complete_apiGenerateTokens {name : String} : AuditComplete adminUser action w.db.tables
    (Fallible.exec (failing env) (apiGenerateTokens c name planId count draws) w) ↔
      ¬ (validateGenerateRequest name count = .ok () ∧
        BatchStarts env w planId name (batchCodes c count draws)) := by
  unfold apiGenerateTokens BatchStarts
  cases hv : validateGenerateRequest name count with
  | error e =>
    exact iff_of_true (complete_stop (Api.exec_ofExcept ..) _) (by simp)
  | ok u =>
    rw [Fallible.exec_bind_ok _ (Api.exec_ofExcept ..)]
    cases hg : env (.sql (.getPlan planId)) with
    | some e =>
      exact iff_of_true (complete_stop (Api.exec_internal_of_some w hg) _) (by simp)
    | none =>
      rw [Fallible.exec_bind_ok _ (Api.exec_internal_query w hg rfl)]
      cases hp : w.db.tables.planById planId with
      | none => exact iff_of_true (.of_untouched (.refl _)) (by simp)
      | some p =>
        cases hact : p.active with
        | false =>
          refine iff_of_true ?_ (by simp [hact])
          show AuditComplete _ _ _ (Fallible.exec (failing env) (if p.active = false then _ else _) w)
          rw [if_pos hact]
          exact .of_untouched (.refl _)
        | true =>
          show AuditComplete _ _ _ (Fallible.exec (failing env) (if p.active = false then _ else _) w) ↔ _
          rw [if_neg (by rw [hact]; exact nofun), Api.exec_internal]
          obtain ⟨r, w', rows, hrun, -, h⟩ := exec_generateTokens env planId count (some name) draws w
          rw [hrun]
          refine (AuditComplete.iff_of_log h.untouched.1).trans (h.untouched.2.trans ?_)
          simp [hact]

theorem complete_apiRevokeToken (haudit : AuditWorks env) : AuditComplete adminUser (some "revoke_token") w.db.tables
    (Fallible.exec (failing env) (ExceptT.mk (apiRevokeToken adminUser id)) w) := by
  unfold apiRevokeToken
  show AuditComplete _ _ _ (Prog.run (failing env) ((sql (.getTokenById id)).run >>= _) w)
  rw [Prog.run_bind]
  cases hg : env (.sql (.getTokenById id)) with
  | some e =>
    have hx : Prog.run (failing env) (sql (.getTokenById id)).run w = (.error e, w) := exec_sql_of_some w hg
    rw [hx]
    exact .of_untouched (.refl _)
  | none =>
    have hx : Prog.run (failing env) (sql (.getTokenById id)).run w = (.ok (w.db.tables.tokenById id), w) :=
      exec_query w hg rfl
    rw [hx]
    cases w.db.tables.tokenById id with
    | none => exact .of_untouched (.refl _)
    | some token =>
      show AuditComplete _ _ _ (Prog.run (failing env) (if token.status ≠ .unused then _ else _) w)
      by_cases hu : token.status ≠ .unused
      · rw [if_pos hu]
        exact .of_untouched (.refl _)
      · rw [if_neg hu, Prog.run_bind]
        cases he : env (.sql (.revokeToken id)) with
        | some e =>
          have hx : Prog.run (failing env) (sql (.revokeToken id)).run w = (.error e, w) := exec_sql_of_some w he
          rw [hx]
          exact .of_untouched (.refl _)
        | none =>
          have hx : Prog.run (failing env) (sql (.revokeToken id)).run w =
              (.ok (), { w with db := (w.db.exec w.now (.revokeToken id)).2 }) := exec_sql_of_none w he
          rw [hx]
          refine complete_entry haudit ?_ ()
          rfl

/-- A disconnect that fails leaves the database as it was. -/
theorem exec_disconnect_cases (env : Op → Option Err) (w : World) (id : Int) :
    ∃ r w', Fallible.exec (failing env) (disconnect id) w = (r, w') ∧
      (w'.db = w.db ∨ r = .ok () ∧ w'.db.tables = w.db.tables.disconnectSession id) := by
  have hget : Reads env (sql (.getSessionById id)) := .of_uses (uses_sql (.query fun _ _ => rfl))
  unfold disconnect
  rw [Fallible.exec_bind]
  cases hx : Fallible.exec (failing env) (sql (.getSessionById id)) w with
  | mk r w₁ =>
    have hdb : w₁.db = w.db := by rw [← hget w, hx]
    rcases r with e | _ | s
    · exact ⟨_, _, rfl, .inl hdb⟩
    · exact ⟨_, _, rfl, .inl hdb⟩
    · show ∃ r w', Fallible.exec (failing env) (deauthorizeClient s.macAddress s.ipAddress >>= _) w₁ = _ ∧ _
      rw [Fallible.exec_bind]
      cases hd : Fallible.exec (failing env) (deauthorizeClient s.macAddress s.ipAddress) w₁ with
      | mk r w₂ =>
        have hdb₂ : w₂.db = w.db := by
          rw [← hdb, ← Reads.deauthorizeClient s.macAddress s.ipAddress w₁, hd]
        cases r with
        | error e => exact ⟨_, _, rfl, .inl hdb₂⟩
        | ok u =>
          cases he : env (.sql (.disconnectSession id)) with
          | some e => exact ⟨_, _, exec_sql_of_some w₂ he, .inl hdb₂⟩
          | none => exact ⟨_, _, exec_sql_of_none w₂ he, .inr ⟨rfl, hdb₂ ▸ rfl⟩⟩

theorem complete_apiDisconnectSession (haudit : AuditWorks env) :
    AuditComplete adminUser (some "disconnect_session") w.db.tables
      (Fallible.exec (failing env) (apiDisconnectSession adminUser id) w) := by
  obtain ⟨r, w₁, hx, h⟩ := exec_disconnect_cases env w id
  have hstep : Fallible.exec (failing env)
      (ExceptT.mk ((disconnect id).run >>= fun r => pure (r.mapError .firewall)) : Api Unit) w =
        (r.mapError .firewall, w₁) := by
    show Prog.run (failing env) ((disconnect id).run >>= _) w = _
    rw [Prog.run_bind, show Prog.run (failing env) (disconnect id).run w = (r, w₁) from hx]
    rfl
  unfold apiDisconnectSession
  cases r with
  | error e =>
    rw [Fallible.exec_bind_error _ hstep]
    rcases h with hdb | ⟨hr, -⟩
    · exact .of_untouched (by rw [hdb]; exact .refl _)
    · cases hr
  | ok u =>
    rw [Fallible.exec_bind_ok _ hstep]
    refine complete_entry haudit ?_ ()
    rcases h with hdb | ⟨-, htab⟩
    · rw [hdb]
    · rw [htab]
      rfl

end Tokens

/-! ## The queries of a page -/

/-- The program runs the queries, changes nothing, and succeeds if none of them fails. -/
def Queries (env : Op → Option Err) (qs : List Sql) (x : Fallible ε Op Op.Out α) : Prop :=
  ∀ w, (Fallible.exec (failing env) x w).2 = w ∧
    ((Fallible.exec (failing env) x w).1.isOk ↔ ∀ q ∈ qs, env (.sql q) = none)

namespace Queries

variable {qs qs' : List Sql}

theorem pure (a : α) : Queries env [] (Pure.pure a : Fallible ε Op Op.Out α) := fun _ => ⟨rfl, iff_of_true rfl nofun⟩

theorem query {q : Sql} (hq : ∀ now t, ∃ a, q.run now t = (.ok a, t)) : Queries env [q] (sql q) := by
  intro w
  rw [List.forall_mem_singleton]
  obtain ⟨a, ha⟩ := hq w.now w.db.tables
  cases he : env (.sql q) with
  | some e =>
    rw [exec_sql_of_some w he]
    exact ⟨rfl, iff_of_false nofun nofun⟩
  | none =>
    rw [exec_query w he ha]
    exact ⟨rfl, iff_of_true rfl rfl⟩

theorem internal {x : App α} (hx : Queries env qs x) : Queries env qs (Api.internal x) := by
  intro w
  obtain ⟨hw, hok⟩ := hx w
  rw [Api.exec_internal]
  refine ⟨hw, Iff.trans ?_ hok⟩
  cases (Fallible.exec (failing env) x w).1 <;> rfl

theorem bind {x : Fallible ε Op Op.Out α} {f : α → Fallible ε Op Op.Out β} (hx : Queries env qs x)
    (hf : ∀ a, Queries env qs' (f a)) : Queries env (qs ++ qs') (x >>= f) := by
  intro w
  obtain ⟨hw, hok⟩ := hx w
  rw [Fallible.exec_bind, List.forall_mem_append]
  cases hr : Fallible.exec (failing env) x w with
  | mk r w₁ =>
    rw [hr] at hw hok
    obtain rfl : w₁ = w := hw
    cases r with
    | error e => exact ⟨rfl, iff_of_false nofun fun h => nomatch hok.2 h.1⟩
    | ok a => exact ⟨(hf a w₁).1, (hf a w₁).2.trans (and_iff_right (hok.1 rfl)).symm⟩

end Queries

/-- The queries of the management page. -/
def manageQueries (statusFilter : String) (page : Int) : List Sql :=
  let dbFilter := if statusFilter = "all" then none else some statusFilter
  [.countTokens dbFilter, .pageTokens dbFilter tokensPerPage ((page - 1) * tokensPerPage), .listPlans, .getLiveSessions]

theorem queries_loadManageData (statusFilter : String) (page : Int) :
    Queries env (manageQueries statusFilter page) (loadManageData statusFilter page) := by
  have tokens (f : Option String) :
      Queries env [.countTokens f, .pageTokens f tokensPerPage ((page - 1) * tokensPerPage)]
        (listTokensPaged f page tokensPerPage) :=
    .bind (.query fun _ _ => ⟨_, rfl⟩) fun _ => .bind (.query fun _ _ => ⟨_, rfl⟩) fun _ => .pure _
  have rest (page : TokenPage) : Queries env [.listPlans, .getLiveSessions] (do
      let plans ← Api.internal (sql .listPlans)
      let sessions ← Api.internal (sql .getLiveSessions)
      return (⟨page, plans, sessions⟩ : ManageData)) :=
    .bind (.internal (.query fun _ _ => ⟨_, rfl⟩)) fun _ =>
      .bind (.internal (.query fun _ _ => ⟨_, rfl⟩)) fun _ => .pure _
  exact .bind (.internal (tokens _)) fun ⟨_, _⟩ => rest _

/-- A query of the page after a form fails. -/
def PageFails (env : Op → Option Err) : Prop := ∃ q ∈ manageQueries "current" 1, env (.sql q) ≠ none

/-! ## The forms -/

/-- A step of a form from tables `t`: whether it changes them, and whether it then goes through. -/
structure FormStep (adminUser : String) (action : Option String) (t : Tables) (changes goes : Prop)
    (r : Except AppError α × World) : Prop where
  untouched : ¬ changes → Untouched t r.2.db.tables
  touched : changes → ¬ Untouched t r.2.db.tables ∧ (r.1.isOk ↔ goes) ∧
    (r.1.isOk → Audited adminUser action t r.2.db.tables)

/-- A step that stops before it changes anything. -/
theorem FormStep.idle {changes goes : Prop} {r : Except AppError α} (hno : ¬ changes) :
    FormStep adminUser action w.db.tables changes goes (r, w) :=
  ⟨fun _ => .refl _, fun h => absurd h hno⟩

/-- After the step the page is loaded. -/
theorem FormStep.complete {changes goes : Prop} {x : Api α} {f : α → Api β} {qs : List Sql}
    (h : FormStep adminUser action w.db.tables changes goes (Fallible.exec (failing env) x w))
    (hf : ∀ a, Queries env qs (f a)) :
    AuditComplete adminUser action w.db.tables (Fallible.exec (failing env) (x >>= f) w) ↔
      ¬ (changes ∧ (¬ goes ∨ ∃ q ∈ qs, env (.sql q) ≠ none)) := by
  rw [Fallible.exec_bind]
  cases hr : Fallible.exec (failing env) x w with
  | mk r w₁ =>
    rw [hr] at h
    by_cases hc : changes
    · obtain ⟨hne, hgoes, haud⟩ := h.touched hc
      rw [and_iff_right hc]
      cases r with
      | error e =>
        have hno : ¬ goes := fun hg => nomatch hgoes.2 hg
        refine iff_of_false (fun hcomp => hne (hcomp.rejected nofun)) ?_
        exact not_not_intro (.inl hno)
      | ok a =>
        have hg : goes := hgoes.1 rfl
        obtain ⟨hw, hok⟩ := hf a w₁
        simp only [hg, not_true_eq_false, false_or, ne_eq, not_exists, not_and, not_not]
        rw [← hok]
        show AuditComplete _ _ _ (Fallible.exec (failing env) (f a) w₁) ↔ _
        constructor
        · intro hcomp
          by_contra hno
          have := hcomp.rejected hno
          rw [hw] at this
          exact hne this
        · intro hpage
          refine ⟨fun _ _ => ?_, fun hno => absurd hpage hno⟩
          rw [hw]
          exact haud rfl
    · refine iff_of_true (.of_untouched ?_) (by simp [hc])
      have hu := h.untouched hc
      cases r with
      | error e => exact hu
      | ok a =>
        show Untouched _ (Fallible.exec (failing env) (f a) w₁).2.db.tables
        rw [(hf a w₁).1]
        exact hu

/-- The form creates a plan. -/
def CreatesPlan (env : Op → Option Err) (planName : String) (duration price : Option Int) : Prop :=
  ∃ d p, duration = some d ∧ price = some p ∧ validatePlanInput planName d p = .ok () ∧
    env (.sql (.createPlan planName d p)) = none

theorem formStep_manageCreatePlan (haudit : AuditWorks env) (w : World) (planName : String)
    (duration price : Option Int) :
    FormStep adminUser (some "create_plan") w.db.tables (CreatesPlan env planName duration price) True
      (Fallible.exec (failing env) (manageCreatePlan adminUser planName duration price) w) := by
  unfold manageCreatePlan
  by_cases hname : planName = ""
  · rw [if_neg (not_not_intro hname)]
    refine .idle ?_
    rintro ⟨d, p, -, -, hv, -⟩
    rw [validatePlanInput, if_pos hname] at hv
    cases hv
  rw [if_pos hname]
  cases duration with
  | none =>
    rw [required_none, Fallible.exec_bind_error _ (Api.exec_ofExcept ..)]
    exact .idle (by simp [CreatesPlan])
  | some d =>
    rw [required_some, Fallible.exec_bind_ok _ (Api.exec_ofExcept ..)]
    cases price with
    | none =>
      rw [required_none, Fallible.exec_bind_error _ (Api.exec_ofExcept ..)]
      exact .idle (by simp [CreatesPlan])
    | some p =>
      rw [required_some, Fallible.exec_bind_ok _ (Api.exec_ofExcept ..)]
      cases hv : validatePlanInput planName d p with
      | error e =>
        rw [Fallible.exec_bind_error _ (Api.exec_ofExcept ..)]
        exact .idle (by simp [CreatesPlan, hv])
      | ok u =>
        rw [Fallible.exec_bind_ok _ (Api.exec_ofExcept ..)]
        cases he : env (.sql (.createPlan planName d p)) with
        | some e =>
          rw [Fallible.exec_bind_error _ (Api.exec_internal_of_some w he)]
          exact .idle (by simp [CreatesPlan, he])
        | none =>
          rw [Fallible.exec_bind_ok _ (Api.exec_internal_of_none w he), Fallible.exec_bind_ok _ (exec_audit haudit _)]
          have creates : CreatesPlan env planName (some d) (some p) := ⟨d, p, rfl, rfl, hv, he⟩
          refine ⟨fun hno => absurd creates hno, fun _ => ⟨fun hu => ?_, iff_of_true rfl trivial, fun _ => ?_⟩⟩
          · exact List.cons_ne_nil _ _ (List.self_eq_append_right.1 hu.plan.symm)
          · exact audited_insertAuditLog rfl _

section Generation

variable {c : TokenConfig}

/-- The whole batch goes through. -/
def BatchFits (env : Op → Option Err) (w : World) (planId : Int) (name : String) (codes : List String) : Prop :=
  codes.Nodup ∧ ∀ code ∈ codes, Insertable env planId (some name) w.db.tables code

/-- The form inserts codes. -/
def GeneratesTokens (env : Op → Option Err) (w : World) (planId : Int) (name : String) (count : Nat)
    (codes : List String) : Prop :=
  validateGenerateForm name count = .ok () ∧ BatchStarts env w planId name codes

/-- The codes are inserted, and the entry is written when all of them are. -/
theorem formStep_batch (haudit : AuditWorks env) (w : World) (planId : Int) (count : Nat) (name : String)
    (draws : Nat → Draws c) (detail : List String → String) (message : List String → β) :
    FormStep adminUser (some "generate_tokens") w.db.tables
      (∃ code ∈ (batchCodes c count draws).head?, Insertable env planId (some name) w.db.tables code)
      (BatchFits env w planId name (batchCodes c count draws))
      (Fallible.exec (failing env) (do
        let codes ← Api.internal (generateTokens c planId count (some name) draws)
        Api.ignore (sql (.auditLog adminUser "generate_tokens" (some "token") (some planId) (some (detail codes))))
        return message codes) w) := by
  obtain ⟨r, w', rows, hrun, -, h⟩ := exec_generateTokens env planId count (some name) draws w
  obtain ⟨hlog, hsame⟩ := h.untouched
  have hgen : Fallible.exec (failing env) (Api.internal (generateTokens c planId count (some name) draws)) w =
      (r.mapError .internal, w') := by
    rw [Api.exec_internal, hrun]
  cases r with
  | error e =>
    rw [Fallible.exec_bind_error _ hgen]
    exact ⟨hsame.2, fun hc => ⟨fun hu => hsame.1 hu hc, h.ok_iff, nofun⟩⟩
  | ok codes =>
    rw [Fallible.exec_bind_ok _ hgen, Fallible.exec_bind_ok _ (exec_audit haudit w'), Fallible.exec_pure]
    -- the entry changes none of the four tables
    refine ⟨fun hc => ?_, fun hc => ⟨fun hu => hsame.1 ?_ hc, h.ok_iff, fun _ => ?_⟩⟩
    · obtain ⟨hplan, htoken, hsession, hsetting⟩ := hsame.2 hc
      exact ⟨hplan, htoken, hsession, hsetting⟩
    · exact ⟨hu.plan, hu.token, hu.session, hu.setting⟩
    · exact audited_insertAuditLog hlog w'.now

theorem formStep_manageGenerateTokens (haudit : AuditWorks env) (w : World) (planId : Int) (count : Option Nat)
    (name : Option String) (draws : Nat → Draws c) :
    FormStep adminUser (some "generate_tokens") w.db.tables
      (GeneratesTokens env w planId (name.getD "") (count.getD 0) (batchCodes c (count.getD 0) draws))
      (BatchFits env w planId (name.getD "") (batchCodes c (count.getD 0) draws))
      (Fallible.exec (failing env) (manageGenerateTokens c adminUser planId count name draws) w) := by
  unfold manageGenerateTokens
  generalize name.getD "" = name
  generalize count.getD 0 = count
  by_cases hpos : count > 0
  case neg =>
    obtain rfl : count = 0 := by omega
    refine .idle ?_
    rintro ⟨-, -, -, code, hcode, -⟩
    cases hcode
  simp only [if_pos hpos]
  cases hv : validateGenerateForm name count with
  | error e =>
    rw [Fallible.exec_bind_error _ (Api.exec_ofExcept ..)]
    exact .idle (by simp [GeneratesTokens, hv])
  | ok u =>
    rw [Fallible.exec_bind_ok _ (Api.exec_ofExcept ..)]
    cases hg : env (.sql (.getPlan planId)) with
    | some e =>
      rw [Fallible.exec_bind_error _ (Api.exec_internal_of_some w hg)]
      exact .idle (by simp [GeneratesTokens, BatchStarts, hg])
    | none =>
      rw [Fallible.exec_bind_ok _ (Api.exec_internal_query w hg rfl)]
      cases hp : w.db.tables.planById planId with
      | none => exact .idle (by simp [GeneratesTokens, BatchStarts, hp])
      | some p =>
        show FormStep _ _ _ _ _ (Fallible.exec (failing env) (if p.active = false then _ else _) w)
        by_cases hact : p.active = false
        · rw [if_pos hact]
          exact .idle (by simp [GeneratesTokens, BatchStarts, hp, hact])
        · rw [if_neg hact]
          have hact : p.active = true := by simpa using hact
          have hstarts : GeneratesTokens env w planId name count (batchCodes c count draws) ↔
              ∃ code ∈ (batchCodes c count draws).head?, Insertable env planId (some name) w.db.tables code := by
            simp [GeneratesTokens, BatchStarts, hv, hg, hp, hact]
          rw [hstarts]
          exact formStep_batch haudit w planId count name draws _ _

/-- The form changes a table and does not go through, or the page after it does not. -/
def FormSlips (env : Op → Option Err) (w : World) (form : ManageForm) (draws : Nat → Draws c) : Prop :=
  match form.planName, form.planId with
  | some planName, _ => CreatesPlan env planName form.duration form.price ∧ PageFails env
  | none, some planId =>
    GeneratesTokens env w planId (form.name.getD "") (form.count.getD 0) (batchCodes c (form.count.getD 0) draws) ∧
      (¬ BatchFits env w planId (form.name.getD "") (batchCodes c (form.count.getD 0) draws) ∨ PageFails env)
  | none, none => False

/-- The action that the form stands for. -/
def ManageForm.auditAction (form : ManageForm) : String :=
  if form.planName.isSome then "create_plan" else "generate_tokens"

theorem complete_manageSubmit (haudit : AuditWorks env) (csrf : String) (form : ManageForm) (draws : Nat → Draws c) :
    AuditComplete adminUser (some form.auditAction) w.db.tables
      (Fallible.exec (failing env) (manageSubmit c adminUser csrf form draws) w) ↔
        ¬ (form.csrfToken = csrf ∧ FormSlips env w form draws) := by
  unfold manageSubmit
  by_cases hcsrf : form.csrfToken = csrf
  case neg =>
    rw [if_pos hcsrf]
    exact iff_of_true (.of_untouched (.refl _)) (by simp [hcsrf])
  rw [if_neg (not_not_intro hcsrf), and_iff_right hcsrf]
  have page (message : Option I18nMessage) : Queries env (manageQueries "current" 1) (do
      let data ← loadManageData "current" 1
      return (data, message)) :=
    .bind (queries_loadManageData "current" 1) fun _ => .pure _
  unfold FormSlips ManageForm.auditAction
  cases hname : form.planName with
  | some planName =>
    refine ((formStep_manageCreatePlan haudit w planName form.duration form.price).complete page).trans ?_
    rw [not_true, false_or]
    rfl
  | none =>
    cases hplan : form.planId with
    | some planId =>
      exact (formStep_manageGenerateTokens haudit w planId form.count form.name draws).complete page
    | none =>
      refine iff_of_true (.of_untouched ?_) not_false
      show Untouched _ (Fallible.exec (failing env) (do
        let data ← loadManageData "current" 1
        return (data, none)) w).2.db.tables
      rw [(page none w).1]
      exact .refl _

end Generation

/-! ## Settings -/

/-- The settings in front of the first statement that fails. -/
def writtenSettings (env : Op → Option Err) (settings : List Setting) : List Setting :=
  settings.takeWhile fun x => (env (.sql (.setSetting x.key x.value))).isNone

def Tables.setSettings (t : Tables) (settings : List Setting) : Tables :=
  settings.foldl (fun t x => t.setSetting x.key x.value) t

/-- Writing settings changes no other table. -/
theorem Tables.setSettings_eq (t : Tables) (settings : List Setting) :
    t.setSettings settings = { t with setting := (t.setSettings settings).setting } := by
  induction settings generalizing t with
  | nil => rfl
  | cons x settings ih =>
    show (t.setSetting x.key x.value).setSettings settings = _
    rw [ih]
    rfl

theorem exec_setSettings (env : Op → Option Err) (settings : List Setting) (w : World) :
    ∃ r w', Fallible.exec (failing env) (settings.forM fun x => Api.internal (sql (.setSetting x.key x.value))) w =
        (r, w') ∧
      w'.db.tables = w.db.tables.setSettings (writtenSettings env settings) ∧
      (r.isOk ↔ ∀ x ∈ settings, env (.sql (.setSetting x.key x.value)) = none) := by
  induction settings generalizing w with
  | nil => exact ⟨_, w, rfl, rfl, iff_of_true rfl nofun⟩
  | cons x settings ih =>
    unfold writtenSettings
    rw [List.forall_mem_cons]
    cases he : env (.sql (.setSetting x.key x.value)) with
    | some e =>
      refine ⟨_, w, Fallible.exec_bind_error _ (Api.exec_internal_of_some w he) _, ?_, ?_⟩
      · rw [List.takeWhile_cons_of_neg (by simp [he])]
        rfl
      · exact iff_of_false nofun (fun h => nomatch h.1)
    | none =>
      obtain ⟨r, w', hrun, htab, hok⟩ := ih { w with db := (w.db.exec w.now (.setSetting x.key x.value)).2 }
      refine ⟨r, w', (Fallible.exec_bind_ok _ (Api.exec_internal_of_none w he) _).trans hrun, ?_, ?_⟩
      · rw [List.takeWhile_cons_of_pos (by simp [he])]
        exact htab
      · rw [hok, and_iff_right rfl]

/-- A statement fails after others have changed a setting. -/
def Interrupted (env : Op → Option Err) (t : Tables) (settings : List Setting) : Prop :=
  (∃ x ∈ settings, env (.sql (.setSetting x.key x.value)) ≠ none) ∧
    (t.setSettings (writtenSettings env settings)).setting ≠ t.setting

theorem complete_settingsSubmit (haudit : AuditWorks env) (csrf : String) (form : SettingsForm) :
    AuditComplete adminUser (some "update_settings") w.db.tables
      (Fallible.exec (failing env) (settingsSubmit adminUser csrf form) w) ↔
        ¬ (form.csrfToken = csrf ∧ form.trimmed.validate = .ok () ∧
          Interrupted env w.db.tables form.trimmed.settings) := by
  unfold settingsSubmit
  by_cases hcsrf : form.csrfToken = csrf
  case neg =>
    rw [if_pos hcsrf]
    exact iff_of_true (.of_untouched (.refl _)) (by simp [hcsrf])
  rw [if_neg (not_not_intro hcsrf), and_iff_right hcsrf]
  simp only
  cases hv : form.trimmed.validate with
  | error e =>
    exact iff_of_true (complete_stop (Api.exec_ofExcept ..) _) (by simp)
  | ok u =>
    rw [Fallible.exec_bind_ok _ (Api.exec_ofExcept ..), and_iff_right rfl]
    obtain ⟨r, w', hrun, htab, hok⟩ := exec_setSettings env form.trimmed.settings w
    rw [Tables.setSettings_eq] at htab
    unfold Interrupted
    cases r with
    | error e =>
      rw [Fallible.exec_bind_error _ hrun]
      have hfail : ∃ x ∈ form.trimmed.settings, env (.sql (.setSetting x.key x.value)) ≠ none := by
        by_contra hno
        exact Bool.false_ne_true (hok.2 fun x hx => by_contra fun hne => hno ⟨x, hx, hne⟩)
      rw [and_iff_right hfail, not_not]
      refine (AuditComplete.iff_of_error ?_).trans ?_
      · exact Bool.false_ne_true
      · rw [htab]
        exact ⟨fun hu => hu.setting, fun hsame => ⟨rfl, rfl, rfl, hsame⟩⟩
    | ok u =>
      rw [Fallible.exec_bind_ok _ hrun]
      refine iff_of_true (complete_entry haudit ?_ _) ?_
      · rw [htab]
      · rintro ⟨⟨x, hx, hne⟩, -⟩
        exact hne (hok.1 rfl x hx)

/-! ## Requests -/

section Requests

variable {c : TokenConfig}

/-- The action that an entry of the request names; a request that writes none is counted as the one it is the sibling
of. -/
def AdminAction.auditAction : AdminAction c → Option String
  | .createPlan .. => some "create_plan"
  | .updatePlan .. | .togglePlanActive .. => some "update_plan"
  | .generateTokens .. => some "generate_tokens"
  | .revokeToken _ => some "revoke_token"
  | .disconnectSession _ => some "disconnect_session"
  | .manageSubmit form _ => some form.auditAction
  | .settingsSubmit _ => some "update_settings"
  | .listPlans | .listTokens _ | .listSessions | .stats | .weeklyStats | .dashboard | .managePage .. => none

/-- The request changes a table and writes no entry or fails after the change. -/
def AdminAction.Slips (env : Op → Option Err) (w : World) (csrf : String) : AdminAction c → Prop
  | .togglePlanActive id active => Switches env w id active
  | .generateTokens name planId count draws =>
    validateGenerateRequest name count = .ok () ∧ BatchStarts env w planId name (batchCodes c count draws)
  | .manageSubmit form draws => form.csrfToken = csrf ∧ FormSlips env w form draws
  | .settingsSubmit form =>
    form.csrfToken = csrf ∧ form.trimmed.validate = .ok () ∧ Interrupted env w.db.tables form.trimmed.settings
  | _ => False

def AdminRequest.auditAction : AdminRequest c → Option String
  | .login .. => none
  | .action _ a => a.auditAction

def AdminRequest.Slips (env : Op → Option Err) (w : World) : AdminRequest c → Prop
  | .login .. | .action none _ => False
  | .action (some csrf) a => a.Slips env w csrf

/-- A login writes nothing but its entry. -/
theorem untouched_recordLogin (haudit : AuditWorks env) (w : World) (username : String) (accepted : Bool)
    (client : Option (String × String)) :
    Untouched w.db.tables (Fallible.exec (failing env) (recordLogin username accepted client) w).2.db.tables := by
  unfold recordLogin
  cases accepted with
  | false =>
    rw [if_neg nofun, Fallible.exec_bind_ok _ (exec_audit haudit w), Fallible.exec_pure]
    exact ⟨rfl, rfl, rfl, rfl⟩
  | true =>
    rw [if_pos rfl, Fallible.exec_bind_ok _ (exec_audit haudit w)]
    rcases client with _ | ⟨mac, ip⟩
    · exact ⟨rfl, rfl, rfl, rfl⟩
    · show Untouched _ (Fallible.exec (failing env) (Api.ignore (authorizeClient mac ip _) >>= _) _).2.db.tables
      rw [Fallible.exec_bind_ok _ (Api.exec_ignore ..), Fallible.exec_pure, Reads.authorizeClient]
      exact ⟨rfl, rfl, rfl, rfl⟩

theorem reads_getDailyStats : Fallible.Uses (Op.Reads env) getDailyStats :=
  uses_getDailyStats (.query fun _ _ => rfl) (.query fun _ _ => rfl) (.query fun _ _ => rfl)

theorem reads_apiListTokens (status : Option String) : Reads env (apiListTokens status) :=
  .of_uses (uses_apiListTokens (fun _ => .query fun _ _ => rfl) status)

theorem reads_dashboard : Reads env dashboard := by
  apply Reads.of_uses
  refine Fallible.Uses.bind (uses_internal reads_getDailyStats) fun stats => ?_
  exact Fallible.Uses.bind (uses_internal (uses_sql (.query fun _ _ => rfl))) fun _ => Fallible.Uses.pure _

/-- A request keeps the trail complete unless it slips. -/
theorem auditComplete_iff (haudit : AuditWorks env) (adminUser : String) (w : World) (r : AdminRequest c) :
    AuditComplete adminUser r.auditAction w.db.tables (Fallible.exec (failing env) (r.program adminUser) w) ↔
      ¬ r.Slips env w := by
  have sound {x : Api Unit} {action : Option String}
      (h : AuditComplete adminUser action w.db.tables (Fallible.exec (failing env) x w)) :
      AuditComplete adminUser action w.db.tables (Fallible.exec (failing env) x w) ↔ ¬ False :=
    iff_of_true h not_false
  rcases r with ⟨username, accepted, client⟩ | ⟨_ | csrf, a⟩
  · exact sound (complete_void.2 (.of_untouched (untouched_recordLogin haudit w username accepted client)))
  · exact sound (.of_untouched (.refl _))
  cases a with
  | createPlan => exact sound (complete_void.2 (complete_apiCreatePlan haudit))
  | updatePlan => exact sound (complete_void.2 (complete_apiUpdatePlan haudit))
  | togglePlanActive => exact complete_void.trans complete_apiTogglePlanActive
  | generateTokens => exact complete_void.trans complete_apiGenerateTokens
  | revokeToken => exact sound (complete_apiRevokeToken haudit)
  | disconnectSession => exact sound (complete_apiDisconnectSession haudit)
  | manageSubmit form draws => exact complete_void.trans (complete_manageSubmit haudit csrf form draws)
  | settingsSubmit form => exact complete_void.trans (complete_settingsSubmit haudit csrf form)
  | listPlans => exact sound (complete_void.2 (Reads.complete (.internal_query fun _ _ => rfl) w))
  | listTokens status => exact sound (complete_void.2 ((reads_apiListTokens status).complete w))
  | listSessions => exact sound (complete_void.2 (Reads.complete (.internal_query fun _ _ => rfl) w))
  | stats => exact sound (complete_void.2 (Reads.complete (.of_uses (uses_internal reads_getDailyStats)) w))
  | weeklyStats => exact sound (complete_void.2 (Reads.complete (.internal_query fun _ _ => rfl) w))
  | dashboard => exact sound (complete_void.2 (reads_dashboard.complete w))
  | managePage tokenStatus tokenPage =>
    exact sound (complete_void.2 (.of_untouched (by
      rw [managePage, (queries_loadManageData _ _ w).1]
      exact .refl _)))

end Requests

theorem auditWorks_noFault : AuditWorks fun _ => none := fun _ _ _ _ _ => rfl

/-- The first plan is edited. -/
def editRequest : AdminRequest ⟨"DIDI", "ABCDEF", 8⟩ := .action (some "token") (.updatePlan 1 "2 h" 120 1000 true)

theorem auditComplete_edit : AuditComplete "admin" editRequest.auditAction shop.tables
    (Fallible.exec noFault (editRequest.program "admin") ⟨0, shop, fun _ => none⟩) :=
  (auditComplete_iff auditWorks_noFault "admin" ⟨0, shop, fun _ => none⟩ editRequest).2 not_false

/-- The first plan is switched off. -/
theorem switch_not_auditComplete : ¬ ∀ (c : TokenConfig) (env : Op → Option Err), AuditWorks env →
    ∀ (adminUser : String) (w : World) (r : AdminRequest c), AuditComplete adminUser r.auditAction w.db.tables
      (Fallible.exec (failing env) (r.program adminUser) w) := by
  intro h
  have hc := h ⟨"DIDI", "ABCDEF", 8⟩ (fun _ => none) auditWorks_noFault "admin" ⟨0, shop, fun _ => none⟩
    (.action (some "token") (.togglePlanActive 1 false))
  obtain ⟨e, he, -⟩ := hc.audited rfl fun hu => absurd hu.plan (by decide)
  cases he

end Didicafe
