/-
The database: its tables, the constraints the schema declares on them, and the SQL statements the
services run, each as one atomic step on the tables. A statement sees the clock through
`datetime('now')` and fails without effect when it would break a constraint.
-/
import Didicafe.Lib.Table
import Didicafe.Model.Std
import Didicafe.Model.Db.Models
import Mathlib.Data.List.Sort

namespace Didicafe

open Table

/-- The tables, with the next value of each `AUTOINCREMENT` key the statements below draw from. -/
structure Tables where
  plan : List Plan
  token : List TokenRow
  session : List SessionRow
  auditLog : List AuditLogEntry
  setting : List Setting
  planSeq : Int
  tokenSeq : Int
  sessionSeq : Int
  auditLogSeq : Int

/-- The constraints of the schema: primary keys, `token.code UNIQUE`, and the foreign keys `token.plan_id` and
`session.token_id`. -/
structure Tables.Schema (t : Tables) : Prop where
  planId : (t.plan.map (·.id)).Nodup
  planSeq : ∀ p ∈ t.plan, p.id < t.planSeq
  tokenId : (t.token.map (·.id)).Nodup
  tokenSeq : ∀ r ∈ t.token, r.id < t.tokenSeq
  tokenCode : (t.token.map (·.code)).Nodup
  sessionId : (t.session.map (·.id)).Nodup
  sessionSeq : ∀ s ∈ t.session, s.id < t.sessionSeq
  tokenPlan : ∀ r ∈ t.token, ∃ p ∈ t.plan, p.id = r.planId
  sessionToken : ∀ s ∈ t.session, ∃ r ∈ t.token, r.id = s.tokenId
  settingKey : (t.setting.map (·.key)).Nodup

/-- A database whose tables meet the constraints. -/
structure Database where
  tables : Tables
  schema : tables.Schema

namespace Tables

variable (t : Tables)

/-! ## Queries -/

/-- `token t JOIN plan p ON t.plan_id = p.id`. -/
def joinToken (r : TokenRow) : Option Token :=
  (t.plan.find? fun p => p.id == r.planId).map fun p =>
    { toTokenRow := r, durationMinutes := p.durationMinutes, planName := p.name }

/-- `session s JOIN token t ON s.token_id = t.id JOIN plan p ON t.plan_id = p.id`. -/
def joinSession (s : SessionRow) : Option Session := do
  let r ← t.token.find? fun r => r.id == s.tokenId
  let p ← t.plan.find? fun p => p.id == r.planId
  return { toSessionRow := s, tokenCode := some r.code, tokenName := r.name, planName := some p.name }

/-- The joined sessions whose row meets a condition. -/
def sessionsWhere (p : SessionRow → Bool) : List Session := (t.session.filter p).filterMap t.joinSession

/-- `SELECT … FROM plan WHERE id = ?1`. -/
def planById (id : Int) : Option Plan := t.plan.find? fun p => p.id == id

/-- `TOKEN_BY_CODE`. -/
def tokenByCode (code : String) : Option Token := (t.token.find? fun r => r.code == code).bind t.joinToken

/-- `TOKEN_BY_ID`. -/
def tokenById (id : Int) : Option Token := (t.token.find? fun r => r.id == id).bind t.joinToken

/-- `SESSION_ACTIVE`: every row with status `active`, also past its expiry. -/
def sessionActive : List Session := t.sessionsWhere (·.isActive)

/-- `SESSION_BY_ID`. -/
def sessionById (id : Int) : Option Session := (t.sessionsWhere fun s => s.id == id).head?

/-- `SESSION_BY_TOKEN`: a row with status `active`; which one is not specified when there are
several. -/
def sessionByToken (tokenId : Int) : Option Session :=
  (t.sessionsWhere fun s => s.tokenId == tokenId && s.isActive).head?

/-- The last of `a` and the sessions `l` by id. -/
def lastById (a : Session) (l : List Session) : Session := l.foldl (fun a b => if a.id ≤ b.id then b else a) a

/-- `SESSION_BY_MAC`: of the rows with status `active` that expire after the database clock, the one
with the largest id. -/
def sessionByMac (now : Int) (mac : String) : Option Session :=
  match t.sessionsWhere fun s => s.macAddress == mac && s.isActive && decide (datetimeNow now < s.expiresAt) with
  | [] => none
  | s :: l => some (lastById s l)

/-- `SESSION_LIVE`: the rows with status `active` that expire after the database clock. -/
def sessionLive (now : Int) : List Session :=
  t.sessionsWhere fun s => s.isActive && decide (datetimeNow now < s.expiresAt)

/-- `SELECT … FROM plan ORDER BY duration_minutes`. -/
def planList : List Plan := t.plan.insertionSort fun p q => p.durationMinutes ≤ q.durationMinutes

/-! ## Token lists

`expires_at` can be `NULL`, and then a comparison with it is neither true nor false. -/

/-- `status = st`. -/
def hasStatus (st : TokenStatus) (r : TokenRow) : Cond := some (r.status == st)

/-- `expires_at > datetime('now')`. -/
def expiresLater (now : Int) (r : TokenRow) : Cond := r.expiresAt.map fun e => decide (datetimeNow now < e)

/-- `expires_at <= datetime('now')`. -/
def hasExpired (now : Int) (r : TokenRow) : Cond := r.expiresAt.map fun e => decide (e ≤ datetimeNow now)

/-- `SELECT … FROM token t JOIN plan p ON t.plan_id = p.id WHERE cond ORDER BY t.created_at DESC`, with `shown` in the
place of `t.status`. Rows of the same second keep the order of the table. -/
def tokensWhere (cond : TokenRow → Cond) (shown : TokenRow → TokenStatus) : List Token :=
  ((t.token.filter fun r => (cond r).holds).filterMap fun r =>
    (t.joinToken r).map fun k => { k with status := shown r }).insertionSort fun a b => b.createdAt ≤ a.createdAt

/-- `SELECT COUNT(*) FROM token WHERE cond`. -/
def countWhere (cond : TokenRow → Cond) : Int := (t.token.countP fun r => (cond r).holds : Nat)

/-- `TOKEN_LIST`. -/
def tokenList (now : Int) : List Token :=
  t.tokensWhere (fun _ => some true) fun r =>
    if ((hasStatus .active r).and (hasExpired now r)).holds then .expired else r.status

/-- `TOKEN_LIST_BY_STATUS`. -/
def tokenListByStatus (status : String) : List Token :=
  t.tokensWhere (fun r => some (r.status.text == status)) (·.status)

/-- `TOKEN_LIST_ACTIVE`. -/
def tokenListActive (now : Int) : List Token :=
  t.tokensWhere (fun r => (hasStatus .active r).and (expiresLater now r)) (·.status)

/-- `TOKEN_LIST_EXPIRED`. -/
def tokenListExpired (now : Int) : List Token :=
  t.tokensWhere (fun r => (hasStatus .expired r).or ((hasStatus .active r).and (hasExpired now r))) fun _ => .expired

/-- `TOKEN_LIST_CURRENT`. -/
def tokenListCurrent (now : Int) : List Token :=
  t.tokensWhere (fun r => (hasStatus .unused r).or ((hasStatus .active r).and (expiresLater now r))) (·.status)

/-- `TOKEN_COUNT_ALL`. -/
def tokenCountAll : Int := t.token.length

/-- `TOKEN_COUNT_BY_STATUS`. -/
def tokenCountByStatus (status : String) : Int := t.countWhere fun r => some (r.status.text == status)

/-- `TOKEN_COUNT_ACTIVE`. -/
def tokenCountActive (now : Int) : Int := t.countWhere fun r => (hasStatus .active r).and (expiresLater now r)

/-- `TOKEN_COUNT_EXPIRED`. -/
def tokenCountExpired (now : Int) : Int :=
  t.countWhere fun r => (hasStatus .expired r).or ((hasStatus .active r).and (hasExpired now r))

/-- `TOKEN_COUNT_CURRENT`. -/
def tokenCountCurrent (now : Int) : Int :=
  t.countWhere fun r => (hasStatus .unused r).or ((hasStatus .active r).and (expiresLater now r))

/-- The query of `list_tokens`. -/
def listTokens (now : Int) : (statusFilter : Option String) → List Token
  | some status => t.tokenListByStatus status
  | none => t.tokenList now

/-- The count query that `list_tokens_paged` chooses. -/
def countQuery (now : Int) : (statusFilter : Option String) → Int
  | some status =>
    if status = "current" then t.tokenCountCurrent now
    else if status = "active" then t.tokenCountActive now
    else if status = "expired" then t.tokenCountExpired now
    else t.tokenCountByStatus status
  | none => t.tokenCountAll

/-- The list query that it chooses. -/
def listQuery (now : Int) : (statusFilter : Option String) → List Token
  | some status =>
    if status = "current" then t.tokenListCurrent now
    else if status = "active" then t.tokenListActive now
    else if status = "expired" then t.tokenListExpired now
    else t.tokenListByStatus status
  | none => t.tokenList now

/-! ## Audit log and settings -/

/-- `SELECT … FROM audit_log ORDER BY timestamp DESC`. Entries of the same second keep the order of the table. -/
def auditLogList : List AuditLogEntry := t.auditLog.insertionSort fun a b => b.timestamp ≤ a.timestamp

/-- `SELECT key, value FROM setting ORDER BY key`. -/
def settingList : List Setting := t.setting.insertionSort fun a b => a.key ≤ b.key

/-! ## Statistics -/

/-- SQLite's `date` of a stored timestamp. -/
def dateOf (text : String) : Option String := (parseTimestamp text).map fun sec => formatDate (sec / 86400)

/-- The tokens the statistics count for a date: active or expired, and redeemed on it. -/
def soldOn (date : String) : List TokenRow :=
  t.token.filter fun r => r.redeemedAt.bind dateOf == some date && (r.status == .active || r.status == .expired)

/-- The rows in the order of `idx_token_status`, through which SQLite visits those that `status IN (…)` selects: by the
text of the status, and by id within a status. -/
def byStatusIndex (rows : List TokenRow) : List TokenRow :=
  rows.insertionSort fun a b => a.status.text < b.status.text ∨ a.status = b.status ∧ a.id ≤ b.id

/-- The prices that `SUM` visits for the rows: `token t JOIN plan p ON t.plan_id = p.id`. -/
def pricesOf (rows : List TokenRow) : List Int :=
  (byStatusIndex rows).filterMap fun r => (t.planById r.planId).map (·.priceAriary)

/-- The prices of the tokens of a date. -/
def pricesOn (date : String) : List Int := t.pricesOf (t.soldOn date)

/-- A step of SQLite's `SUM` over integers, which fails when the sum exceeds an `i64`. -/
def addI64 (a b : Int) : Except Err Int :=
  if -2 ^ 63 ≤ a + b ∧ a + b < 2 ^ 63 then .ok (a + b) else .error (.sqlx "integer overflow")

def dayStats (date : String) : Except Err DayStats := do
  let revenue ← (t.pricesOn date).foldlM addI64 0
  return { date := date, tokensSold := (t.soldOn date).length, revenueAriary := revenue }

/-- The recursive `dates` of `get_weekly_stats`: the date of a day, and the next ones as long as the date is before
today's, at most `fuel` of them. -/
def datesUpTo (today : Int) : (fuel : Nat) → (day : Int) → List String
  | 0, _ => []
  | fuel + 1, day => formatDate day :: if formatDate day < formatDate today then datesUpTo today fuel (day + 1) else []

/-- The tokens that `get_daily_stats` counts as sold. -/
def soldToday (now : Int) : List TokenRow :=
  t.token.filter fun r =>
    (r.redeemedAt.any fun text => decide (formatDate (today now) ≤ text)) &&
      (r.status == .active || r.status == .expired)

/-- The count of the live sessions, without the joins. -/
def countLiveSessions (now : Int) : Int :=
  (t.session.countP fun s => s.isActive && decide (datetimeNow now < s.expiresAt) : Nat)

def revenueToday (now : Int) : Except Err Int := (t.pricesOf (t.soldToday now)).foldlM addI64 0

def weeklyStats (now : Int) : Except Err (List DayStats) := (datesUpTo (today now) 7 (today now - 6)).mapM t.dayStats

/-! ## Updates -/

/-- `INSERT INTO plan (name, duration_minutes, price_ariary) VALUES (…)`. -/
def createPlan (now : Int) (name : String) (durationMinutes priceAriary : Int) : Tables :=
  { t with
    plan := t.plan ++
      [{ id := t.planSeq, name := name, durationMinutes := durationMinutes, priceAriary := priceAriary, active := true,
         createdAt := datetimeNow now }]
    planSeq := t.planSeq + 1 }

/-- `UPDATE plan SET name = ?1, duration_minutes = ?2, price_ariary = ?3, active = ?4 WHERE id = ?5`. -/
def updatePlan (id : Int) (name : String) (durationMinutes priceAriary : Int) (active : Bool) : Tables :=
  { t with
    plan := updateWhere (fun p => p.id == id)
      (fun p =>
        { p with name := name, durationMinutes := durationMinutes, priceAriary := priceAriary, active := active })
      t.plan }

/-- `INSERT INTO token (code, name, plan_id, status) VALUES (?1, ?2, ?3, 'unused')`. -/
def createToken (now : Int) (code : String) (name : Option String) (planId : Int) : Except Err Int × Tables :=
  if t.token.any (fun r => r.code == code) then (.error (.sqlx "UNIQUE constraint failed: token.code"), t)
  else if t.plan.any (fun p => p.id == planId) then
    (.ok t.tokenSeq,
      { t with
        token := t.token ++
          [{ id := t.tokenSeq, code := code, name := name, planId := planId, status := .unused,
             createdAt := datetimeNow now, redeemedAt := none, expiresAt := none }]
        tokenSeq := t.tokenSeq + 1 })
  else (.error (.sqlx "FOREIGN KEY constraint failed"), t)

/-- `UPDATE token SET status = 'active', redeemed_at = datetime('now'), expires_at = ?1 WHERE id = ?2`. -/
def redeemToken (now : Int) (tokenId : Int) (expiresAt : String) : Tables :=
  { t with
    token := updateWhere (fun r => r.id == tokenId)
      (fun r => { r with status := .active, redeemedAt := some (datetimeNow now), expiresAt := some expiresAt })
      t.token }

/-- `UPDATE token SET status = 'expired' WHERE id = ?1`. -/
def expireToken (tokenId : Int) : Tables :=
  { t with token := updateWhere (fun r => r.id == tokenId) (fun r => { r with status := .expired }) t.token }

/-- `UPDATE token SET status = 'revoked' WHERE id = ?1 AND status = 'unused'`. -/
def revokeToken (tokenId : Int) : Tables :=
  { t with
    token := updateWhere (fun r => r.id == tokenId && r.status == .unused) (fun r => { r with status := .revoked })
      t.token }

/-- `UPDATE session SET status = st WHERE p`. -/
def setSessionStatus (p : SessionRow → Bool) (st : SessionStatus) : Tables :=
  { t with session := updateWhere p (fun s => { s with status := st }) t.session }

/-- `UPDATE session SET status = 'expired' WHERE id = ?1`. -/
def expireSession (sessionId : Int) : Tables := t.setSessionStatus (fun s => s.id == sessionId) .expired

/-- `UPDATE session SET status = 'disconnected' WHERE id = ?1`. -/
def disconnectSession (sessionId : Int) : Tables :=
  t.setSessionStatus (fun s => s.id == sessionId) .disconnected

/-- The row `Database::create_session` inserts. -/
def newSession (now : Int) (tokenId : Int) (mac ip expiresAt : String) : SessionRow :=
  { id := t.sessionSeq, tokenId := tokenId, macAddress := mac, ipAddress := ip, startedAt := datetimeNow now,
    expiresAt := expiresAt, status := .active }

/-- The transaction of `Database::create_session`: disconnects the active rows of the MAC, then
inserts the new row; rolled back when the token does not exist. -/
def createSession (now : Int) (tokenId : Int) (mac ip expiresAt : String) : Except Err Int × Tables :=
  if t.token.any (fun r => r.id == tokenId) then
    let t' := t.setSessionStatus (fun s => s.macAddress == mac && s.isActive) .disconnected
    (.ok t.sessionSeq,
      { t' with
        session := t'.session ++ [t.newSession now tokenId mac ip expiresAt]
        sessionSeq := t.sessionSeq + 1 })
  else (.error (.sqlx "FOREIGN KEY constraint failed"), t)

/-- A row of `purge_expired_sessions`: ended, and started before the retention period. -/
def isPurged (now retentionDays : Int) (s : SessionRow) : Bool :=
  (s.status == .expired || s.status == .disconnected) &&
    (datetimeDaysAgo now retentionDays).any fun cutoff => decide (s.startedAt < cutoff)

/-- `DELETE FROM session WHERE status IN ('expired', 'disconnected') AND started_at < datetime('now', '-N days')`. -/
def deleteEndedSessions (now retentionDays : Int) : Tables :=
  { t with session := deleteWhere (isPurged now retentionDays) t.session }

/-- An ended token without a session. -/
def isOrphan (r : TokenRow) : Bool :=
  (r.status == .expired || r.status == .revoked) && !t.session.any fun s => s.tokenId == r.id

/-- `DELETE FROM token WHERE status IN ('expired', 'revoked') AND id NOT IN (SELECT token_id FROM session)`. -/
def deleteOrphanTokens : Tables := { t with token := deleteWhere t.isOrphan t.token }

/-- `INSERT INTO audit_log (admin_user, action, target_type, target_id, detail) VALUES (…)`. -/
def insertAuditLog (now : Int) (adminUser action : String) (targetType : Option String) (targetId : Option Int)
    (detail : Option String) : Tables :=
  { t with
    auditLog := t.auditLog ++
      [{ id := t.auditLogSeq, timestamp := datetimeNow now, adminUser := adminUser, action := action,
         targetType := targetType, targetId := targetId, detail := detail }]
    auditLogSeq := t.auditLogSeq + 1 }

/-- `INSERT INTO setting (key, value) VALUES (?1, ?2) ON CONFLICT(key) DO UPDATE SET value = excluded.value`. -/
def setSetting (key value : String) : Tables :=
  { t with
    setting :=
      if t.setting.any (fun x => x.key == key) then
        updateWhere (fun x => x.key == key) (fun x => { x with value := value }) t.setting
      else t.setting ++ [⟨key, value⟩] }

/-! ## Statements -/

end Tables

/-- The statements of `db/mod.rs` the services run. -/
inductive Sql where
  | createPlan (name : String) (durationMinutes priceAriary : Int)
  | getPlan (id : Int)
  | updatePlan (id : Int) (name : String) (durationMinutes priceAriary : Int) (active : Bool)
  | createToken (code : String) (name : Option String) (planId : Int)
  | getTokenByCode (code : String)
  | getTokenById (id : Int)
  | redeemToken (tokenId : Int) (expiresAt : String)
  | expireToken (tokenId : Int)
  | revokeToken (tokenId : Int)
  | createSession (tokenId : Int) (mac ip expiresAt : String)
  | getActiveSessions
  | expireSession (sessionId : Int)
  | disconnectSession (sessionId : Int)
  | deleteEndedSessions (retentionDays : Int)
  | deleteOrphanTokens
  | getSessionByMac (mac : String)
  | getSessionById (id : Int)
  | getActiveSessionByToken (tokenId : Int)
  | auditLog (adminUser action : String) (targetType : Option String) (targetId : Option Int) (detail : Option String)
  | getWeeklyStats
  | listPlans
  | listTokens (statusFilter : Option String)
  | countTokens (statusFilter : Option String)
  | pageTokens (statusFilter : Option String) (limit offset : Int)
  | getLiveSessions
  | countSoldToday
  | countLiveSessions
  | sumRevenueToday
  | setSetting (key value : String)
  | getAllSettings
  | countAuditLog
  | pageAuditLog (limit offset : Int)
deriving DecidableEq

abbrev Sql.Out : Sql → Type
  | .getTokenByCode _ | .getTokenById _ => Option Token
  | .createPlan .. | .createToken .. | .createSession .. => Int
  | .getPlan _ => Option Plan
  | .updatePlan .. => Bool
  | .deleteEndedSessions _ => Nat
  | .getWeeklyStats => List DayStats
  | .listPlans => List Plan
  | .listTokens _ | .pageTokens .. => List Token
  | .countTokens _ | .countSoldToday | .countLiveSessions | .sumRevenueToday | .countAuditLog => Int
  | .getAllSettings => List Setting
  | .pageAuditLog .. => List AuditLogEntry
  | .getActiveSessions | .getLiveSessions => List Session
  | .getSessionByMac _ | .getSessionById _ | .getActiveSessionByToken _ => Option Session
  | .redeemToken .. | .expireToken _ | .revokeToken _ | .expireSession _ | .disconnectSession _ | .deleteOrphanTokens
  | .auditLog .. | .setSetting .. => Unit

def Sql.run (now : Int) (t : Tables) : (q : Sql) → Except Err q.Out × Tables
  | .createPlan name durationMinutes priceAriary => (.ok t.planSeq, t.createPlan now name durationMinutes priceAriary)
  | .getPlan id => (.ok (t.planById id), t)
  | .updatePlan id name durationMinutes priceAriary active =>
    (.ok (t.planById id).isSome, t.updatePlan id name durationMinutes priceAriary active)
  | .createToken code name planId => t.createToken now code name planId
  | .getTokenByCode code => (.ok (t.tokenByCode code), t)
  | .getTokenById id => (.ok (t.tokenById id), t)
  | .redeemToken tokenId expiresAt => (.ok (), t.redeemToken now tokenId expiresAt)
  | .expireToken tokenId => (.ok (), t.expireToken tokenId)
  | .revokeToken tokenId => (.ok (), t.revokeToken tokenId)
  | .createSession tokenId mac ip expiresAt => t.createSession now tokenId mac ip expiresAt
  | .getActiveSessions => (.ok t.sessionActive, t)
  | .expireSession sessionId => (.ok (), t.expireSession sessionId)
  | .disconnectSession sessionId => (.ok (), t.disconnectSession sessionId)
  | .deleteEndedSessions retentionDays =>
    (.ok (t.session.countP (Tables.isPurged now retentionDays)), t.deleteEndedSessions now retentionDays)
  | .deleteOrphanTokens => (.ok (), t.deleteOrphanTokens)
  | .getSessionByMac mac => (.ok (t.sessionByMac now mac), t)
  | .getSessionById id => (.ok (t.sessionById id), t)
  | .getActiveSessionByToken tokenId => (.ok (t.sessionByToken tokenId), t)
  | .auditLog adminUser action targetType targetId detail =>
    (.ok (), t.insertAuditLog now adminUser action targetType targetId detail)
  | .getWeeklyStats => (t.weeklyStats now, t)
  | .listPlans => (.ok t.planList, t)
  | .listTokens statusFilter => (.ok (t.listTokens now statusFilter), t)
  | .countTokens statusFilter => (.ok (t.countQuery now statusFilter), t)
  | .pageTokens statusFilter limit offset => (.ok (limitOffset limit offset (t.listQuery now statusFilter)), t)
  | .getLiveSessions => (.ok (t.sessionLive now), t)
  | .countSoldToday => (.ok (t.soldToday now).length, t)
  | .countLiveSessions => (.ok (t.countLiveSessions now), t)
  | .sumRevenueToday => (t.revenueToday now, t)
  | .setSetting key value => (.ok (), t.setSetting key value)
  | .getAllSettings => (.ok t.settingList, t)
  | .countAuditLog => (.ok t.auditLog.length, t)
  | .pageAuditLog limit offset => (.ok (limitOffset limit offset t.auditLogList), t)

/-! ## The statements keep the constraints -/

namespace Tables

theorem Schema.token {t : Tables} (h : t.Schema) (p : TokenRow → Bool) (f : TokenRow → TokenRow)
    (hid : ∀ r, (f r).id = r.id) (hcode : ∀ r, (f r).code = r.code) (hplan : ∀ r, (f r).planId = r.planId) :
    Schema { t with token := updateWhere p f t.token } where
  __ := h
  tokenId := by rw [map_updateWhere hid]; exact h.tokenId
  tokenSeq := forall_updateWhere h.tokenSeq fun r hr _ => by rw [hid]; exact h.tokenSeq r hr
  tokenCode := by rw [map_updateWhere hcode]; exact h.tokenCode
  tokenPlan := forall_updateWhere h.tokenPlan fun r hr _ => by rw [hplan]; exact h.tokenPlan r hr
  sessionToken s hs := by
    obtain ⟨r, hr, hrs⟩ := h.sessionToken s hs
    have : s.tokenId ∈ (updateWhere p f t.token).map (·.id) := by
      rw [map_updateWhere hid]; exact List.mem_map.2 ⟨r, hr, hrs⟩
    exact List.mem_map.1 this

theorem Schema.setSessionStatus {t : Tables} (h : t.Schema) (p : SessionRow → Bool) (st : SessionStatus) :
    (t.setSessionStatus p st).Schema where
  __ := h
  sessionId := by
    have ids : (t.setSessionStatus p st).session.map (·.id) = t.session.map (·.id) :=
      map_updateWhere (by intro _; rfl) _
    rw [ids]; exact h.sessionId
  sessionSeq := forall_updateWhere h.sessionSeq fun s hs _ => h.sessionSeq s hs
  sessionToken := forall_updateWhere h.sessionToken fun s hs _ => h.sessionToken s hs

theorem Schema.createSession {t : Tables} (h : t.Schema) (now tokenId : Int) (mac ip expiresAt : String) :
    (t.createSession now tokenId mac ip expiresAt).2.Schema := by
  unfold Tables.createSession
  split
  · rename_i htok
    obtain ⟨r, hr, hrt⟩ := List.any_eq_true.1 htok
    have h' := h.setSessionStatus (fun s => s.macAddress == mac && s.isActive) .disconnected
    refine { h' with sessionId := nodup_map_append h'.sessionId h'.sessionSeq, sessionSeq := ?_, sessionToken := ?_ }
    · intro s hs
      rcases List.mem_append.1 hs with hs | hs
      · have hlt : s.id < t.sessionSeq := h'.sessionSeq s hs
        simp only; omega
      · rw [List.mem_singleton.1 hs]; simp only [newSession]; omega
    · intro s hs
      rcases List.mem_append.1 hs with hs | hs
      · exact h'.sessionToken s hs
      · rw [List.mem_singleton.1 hs]
        exact ⟨r, hr, by simpa [newSession] using hrt⟩
  · exact h

theorem Schema.createPlan {t : Tables} (h : t.Schema) (now : Int) (name : String) (durationMinutes priceAriary : Int) :
    (t.createPlan now name durationMinutes priceAriary).Schema where
  __ := h
  planId := nodup_map_append h.planId h.planSeq
  planSeq p hp := by
    rcases List.mem_append.1 hp with hp | hp
    · have hlt := h.planSeq p hp
      simp only [Tables.createPlan]; omega
    · rw [List.mem_singleton.1 hp]; simp only [Tables.createPlan]; omega
  tokenPlan r hr := by
    obtain ⟨p, hp, hpr⟩ := h.tokenPlan r hr
    exact ⟨p, List.mem_append.2 (.inl hp), hpr⟩

theorem Schema.updatePlan {t : Tables} (h : t.Schema) (id : Int) (name : String) (durationMinutes priceAriary : Int)
    (active : Bool) : (t.updatePlan id name durationMinutes priceAriary active).Schema := by
  have ids : (t.updatePlan id name durationMinutes priceAriary active).plan.map (·.id) = t.plan.map (·.id) :=
    map_updateWhere (by intro _; rfl) _
  refine { h with planId := ids ▸ h.planId, planSeq := forall_updateWhere h.planSeq fun p hp _ => h.planSeq p hp,
                  tokenPlan := fun r hr => ?_ }
  obtain ⟨p, hp, hpr⟩ := h.tokenPlan r hr
  have : r.planId ∈ (t.updatePlan id name durationMinutes priceAriary active).plan.map (·.id) := by
    rw [ids]; exact List.mem_map.2 ⟨p, hp, hpr⟩
  exact List.mem_map.1 this

theorem Schema.createToken {t : Tables} (h : t.Schema) (now : Int) (code : String) (name : Option String)
    (planId : Int) : (t.createToken now code name planId).2.Schema := by
  unfold Tables.createToken
  split
  · exact h
  rename_i hcode
  split
  · rename_i hplan
    obtain ⟨p, hp, hpr⟩ := List.any_eq_true.1 hplan
    refine { h with tokenId := nodup_map_append h.tokenId h.tokenSeq, tokenSeq := ?_, tokenCode := ?_, tokenPlan := ?_,
                    sessionToken := ?_ }
    · intro r hr
      rcases List.mem_append.1 hr with hr | hr
      · have hlt := h.tokenSeq r hr
        simp only; omega
      · rw [List.mem_singleton.1 hr]; simp only; omega
    · rw [List.map_append, List.map_singleton]
      refine List.nodup_append.2 ⟨h.tokenCode, List.nodup_singleton _, fun c hc c' hc' he => hcode ?_⟩
      obtain ⟨r, hr, rfl⟩ := List.mem_map.1 hc
      rw [List.mem_singleton.1 hc'] at he
      exact List.any_eq_true.2 ⟨r, hr, by simpa using he⟩
    · intro r hr
      rcases List.mem_append.1 hr with hr | hr
      · exact h.tokenPlan r hr
      · rw [List.mem_singleton.1 hr]
        exact ⟨p, hp, by simpa using hpr⟩
    · intro s hs
      obtain ⟨r, hr, hrs⟩ := h.sessionToken s hs
      exact ⟨r, List.mem_append.2 (.inl hr), hrs⟩
  · exact h

theorem Schema.deleteEndedSessions {t : Tables} (h : t.Schema) (now retentionDays : Int) :
    (t.deleteEndedSessions now retentionDays).Schema where
  __ := h
  sessionId := nodup_map_deleteWhere h.sessionId
  sessionSeq s hs := h.sessionSeq s (mem_deleteWhere.1 hs).1
  sessionToken s hs := h.sessionToken s (mem_deleteWhere.1 hs).1

/-- A token with a session is not an orphan. -/
theorem Schema.deleteOrphanTokens {t : Tables} (h : t.Schema) : t.deleteOrphanTokens.Schema where
  __ := h
  tokenId := nodup_map_deleteWhere h.tokenId
  tokenSeq r hr := h.tokenSeq r (mem_deleteWhere.1 hr).1
  tokenCode := nodup_map_deleteWhere h.tokenCode
  tokenPlan r hr := h.tokenPlan r (mem_deleteWhere.1 hr).1
  sessionToken s hs := by
    obtain ⟨r, hr, hrs⟩ := h.sessionToken s hs
    refine ⟨r, mem_deleteWhere.2 ⟨hr, ?_⟩, hrs⟩
    have : (t.session.any fun s => s.tokenId == r.id) = true := List.any_eq_true.2 ⟨s, hs, by simp [hrs]⟩
    simp [isOrphan, this]

theorem Schema.setSetting {t : Tables} (h : t.Schema) (key value : String) : (t.setSetting key value).Schema where
  __ := h
  settingKey := by
    unfold Tables.setSetting
    split
    · have keys : (updateWhere (fun x => x.key == key) (fun x => { x with value := value }) t.setting).map (·.key) =
          t.setting.map (·.key) := map_updateWhere (by intro _; rfl) _
      rw [keys]; exact h.settingKey
    · rename_i hnew
      rw [List.map_append, List.map_singleton]
      refine List.nodup_append.2 ⟨h.settingKey, List.nodup_singleton _, fun k hk k' hk' he => hnew ?_⟩
      obtain ⟨x, hx, rfl⟩ := List.mem_map.1 hk
      rw [List.mem_singleton.1 hk'] at he
      exact List.any_eq_true.2 ⟨x, hx, by simpa using he⟩

end Tables

theorem Sql.run_schema {t : Tables} (h : t.Schema) (now : Int) (q : Sql) : (q.run now t).2.Schema := by
  cases q with
  | createPlan => exact h.createPlan ..
  | updatePlan => exact h.updatePlan ..
  | createToken => exact h.createToken ..
  | redeemToken => exact h.token _ _ (fun _ => rfl) (fun _ => rfl) fun _ => rfl
  | expireToken => exact h.token _ _ (fun _ => rfl) (fun _ => rfl) fun _ => rfl
  | revokeToken => exact h.token _ _ (fun _ => rfl) (fun _ => rfl) fun _ => rfl
  | createSession => exact h.createSession ..
  | expireSession => exact h.setSessionStatus ..
  | disconnectSession => exact h.setSessionStatus ..
  | deleteEndedSessions => exact h.deleteEndedSessions ..
  | deleteOrphanTokens => exact h.deleteOrphanTokens
  | auditLog => exact { h with }
  | setSetting => exact h.setSetting ..
  | _ => exact h

/-- A statement on a database; the constraints hold again after it. -/
def Database.exec (now : Int) (d : Database) (q : Sql) : Except Err q.Out × Database :=
  ((q.run now d.tables).1, ⟨(q.run now d.tables).2, Sql.run_schema d.schema now q⟩)

end Didicafe
