/-
The durations of the configuration that are added to a clock or negated: the ban of the rate limiter, the timeout of the
admin sessions, and the grace period of the cleanup ticker. The validation bounds the first two only from below and does
not look at the third, so a configuration it accepts can make a login or a pass of the ticker panic.
-/
import Didicafe.Limiter.Memory
import Didicafe.Model.AdminSession
import Didicafe.Session.Passes
import Didicafe.Lib.Runs

namespace Didicafe

open Effect Runs

/-! ## The configuration -/

/-- The part of the configuration that durations are taken from. -/
structure TimeConfig where
  sessionTimeoutSeconds : UInt64
  rateLimit : RateLimitConfig
  session : SessionConfig
deriving DecidableEq, Repr

/-- The checks of `Config::validate` on this part. -/
def TimeConfig.validate (c : TimeConfig) : Except Err Unit := do
  ensure (0 < c.sessionTimeoutSeconds) "admin.session_timeout_seconds must be > 0"
  c.rateLimit.validate
  c.session.validate

/-- The integers of a TOML file are an `i64`, also where the field is a `u64`. -/
structure TimeConfig.InToml (c : TimeConfig) : Prop where
  sessionTimeout : c.sessionTimeoutSeconds.toNat ≤ 9223372036854775807
  authWindow : c.rateLimit.authWindowSeconds.toNat ≤ 9223372036854775807
  banDuration : c.rateLimit.banDurationSeconds.toNat ≤ 9223372036854775807
  cleanupInterval : c.session.cleanupIntervalSeconds ≤ 9223372036854775807
  gracePeriod : FitsI64 c.session.gracePeriodSeconds
  retention : FitsI64 c.session.retentionDays
  auditRetention : FitsI64 c.session.auditRetentionDays

/-! ## The grace period as it is compiled -/

/-- The body of the ticker's loop, for the `-grace` that the build computes: the remaining time is compared with it. -/
def Build.cleanupSession (b : Build) (grace : Int) (session : Session) : App PUnit := do
  let limit ← App.ofExcept (b.i64 "negate" (-grace))
  ExceptT.lift (Didicafe.cleanupSession (-limit) session)

/-- One expiry step of `cleanup_ticker`. -/
def Build.cleanupPass (b : Build) (grace : Int) : App PUnit := do
  match ← (sql .getActiveSessions).attempt with
  | .error _ => return ()
  | .ok sessions => sessions.forM (b.cleanupSession grace)

section Pass

variable {b : Build} {grace : Int} {env : Op → Option Err} {w : World}

theorem Build.cleanupSession_of_fits (h : FitsI64 (-grace)) (session : Session) :
    b.cleanupSession grace session = ExceptT.lift (Didicafe.cleanupSession grace session) := by
  unfold Build.cleanupSession
  rw [i64_of_fits h]
  show ExceptT.lift (Didicafe.cleanupSession (- -grace) session) = _
  rw [Int.neg_neg]

/-- A pass whose negation does not overflow is the pass of the ticker. -/
theorem exec_cleanupPass_of_fits (h : FitsI64 (-grace)) :
    Fallible.exec (failing env) (b.cleanupPass grace) w =
      (.ok ⟨⟩, ((Didicafe.cleanupPass grace).run (failing env) w).2) := by
  have hbody : b.cleanupSession grace = fun k => ExceptT.lift (Didicafe.cleanupSession grace k) :=
    funext fun k => Build.cleanupSession_of_fits h k
  unfold Build.cleanupPass Didicafe.cleanupPass
  rw [Fallible.exec_bind, exec_attempt, Prog.run_bind, run_run]
  cases (Fallible.exec (failing env) (sql .getActiveSessions) w).1 with
  | error e => rfl
  | ok sessions =>
    simp only
    rw [hbody, Fallible.exec_forM_lift]

theorem World.exists_active_iff : (∃ s, w.Active s) ↔ w.db.tables.sessionActive ≠ [] := by
  constructor
  · rintro ⟨s, hs, ha⟩ hnil
    obtain ⟨k, hk, -⟩ := Tables.exists_sessionsWhere w.db.schema hs ha
    rw [show w.db.tables.sessionsWhere (·.isActive) = [] from hnil] at hk
    cases hk
  · intro hne
    obtain ⟨k, hk⟩ := List.exists_mem_of_ne_nil _ hne
    exact ⟨k.toSessionRow, Tables.mem_sessionsWhere hk⟩

/-- With overflow checks, a negation that overflows ends the pass in a panic as soon as there is a session to look
at. -/
theorem isOk_cleanupPass_of_not_fits (h : ¬ FitsI64 (-grace)) :
    (Fallible.exec (failing env) (Build.debug.cleanupPass grace) w).1.isOk = true ↔
      (env (.sql .getActiveSessions) = none → ¬ ∃ k, w.Active k) := by
  have hbody : ∀ k, Build.debug.cleanupSession grace k =
      App.ofExcept (.error (.panic "attempt to negate with overflow")) := by
    intro k
    unfold Build.cleanupSession Build.i64
    rw [if_neg h]
    rfl
  unfold Build.cleanupPass
  rw [Fallible.exec_bind, exec_attempt]
  cases he : env (.sql .getActiveSessions) with
  | some e =>
    rw [exec_sql_of_some w he]
    exact ⟨fun _ hnone => absurd hnone (by simp), fun _ => rfl⟩
  | none =>
    rw [exec_query w he rfl, World.exists_active_iff]
    cases hs : w.db.tables.sessionActive with
    | nil => exact ⟨fun _ _ hne => hne rfl, fun _ => rfl⟩
    | cons k ks =>
      have hfirst : Fallible.exec (failing env) ((k :: ks).forM (Build.debug.cleanupSession grace)) w =
          (.error (.panic "attempt to negate with overflow"), w) := by
        show Fallible.exec (failing env) (Build.debug.cleanupSession grace k >>= fun _ => _) w = _
        rw [hbody, Fallible.exec_bind_error _ (exec_ofExcept ..)]
      simp only
      rw [hfirst]
      exact ⟨fun hok => (nomatch hok), fun hnot => absurd (List.cons_ne_nil k ks) (hnot trivial)⟩

end Pass

/-! ## Runs -/

/-- The monotonic clock, the limiter, the admin sessions, and what the ticker acts on. -/
structure TimedDaemon where
  clock : Nat
  limiter : RateLimiter
  store : AdminSessionStore
  world : World

inductive TimedCall where
  | checkAndRecord (ip : IpAddr)
  | create (idDraws csrfDraws : Nat → Fin sessionCharset.length)
  | cleanup (env : Op → Option Err)
  -- time passes, and the rest of the daemon changes the database and the firewall
  | meanwhile (nanos : Nat) (world : World)

/-- Whether a call returns without a panic, and what it leaves. -/
def TimedCall.run (b : Build) (c : TimeConfig) (s : TimedDaemon) : TimedCall → Bool × TimedDaemon
  | .checkAndRecord ip =>
    let r := (Didicafe.checkAndRecord ip).run Gate.exec ⟨s.clock, s.limiter⟩
    (r.1.isOk, { s with limiter := r.2.limiter })
  | .create idDraws csrfDraws =>
    let r := Fallible.exec Desk.exec (createAdminSession s.store.timeout idDraws csrfDraws) ⟨s.clock, s.store⟩
    (r.1.isOk, { s with store := r.2.store })
  | .cleanup env =>
    let r := Fallible.exec (failing env) (b.cleanupPass c.session.gracePeriodSeconds) s.world
    (r.1.isOk, { s with world := r.2 })
  | .meanwhile nanos world => (true, { s with clock := s.clock + nanos, world := world })

/-- The daemon has started with the configuration. -/
def TimedDaemon.Started (c : TimeConfig) (s : TimedDaemon) : Prop :=
  s.limiter = .new c.rateLimit ∧ s.store = .new c.sessionTimeoutSeconds

def timing (b : Build) (c : TimeConfig) : Machine TimedDaemon TimedCall where
  init := TimedDaemon.Started c
  step s k := some (k.run b c s).2

/-- No time computation of the call overflows or panics: even with overflow checks it returns. -/
def TimeSafe (c : TimeConfig) (s : TimedDaemon) (k : TimedCall) : Prop := (k.run .debug c s).1 = true

/-- The call of `ip` starts a ban. -/
def TimedDaemon.BanDue (s : TimedDaemon) (ip : IpAddr) : Prop :=
  s.limiter.checkBan s.clock ip = none ∧
    s.limiter.config.banAfterAttempts.toNat ≤ (s.limiter.recorded s.clock ip).length

/-- What the call adds to the clock, or negates, has a result in range. -/
def Representable (c : TimeConfig) (s : TimedDaemon) : TimedCall → Prop
  | .checkAndRecord ip => s.BanDue ip →
    (s.clock + fromSecs c.rateLimit.banDurationSeconds) / 1000000000 ≤ 9223372036854775807
  | .create _ _ => (s.clock + fromSecs c.sessionTimeoutSeconds) / 1000000000 ≤ 9223372036854775807
  | .cleanup env => env (.sql .getActiveSessions) = none → (∃ k, s.world.Active k) →
    c.session.gracePeriodSeconds ≠ -9223372036854775808
  | .meanwhile _ _ => True

/-- What the calls keep, as long as they are safe. -/
structure Timely (c : TimeConfig) (s : TimedDaemon) : Prop where
  config : s.limiter.config = c.rateLimit
  sound : s.limiter.poisoned = false
  short : s.limiter.Short
  timeout : s.store.timeout = fromSecs c.sessionTimeoutSeconds

/-! ### One call -/

theorem checkedAdd_isSome {t d : Nat} :
    (checkedAdd t d).isSome = true ↔ (t + d) / 1000000000 ≤ 9223372036854775807 := by
  unfold checkedAdd
  split
  · exact ⟨fun _ => by omega, fun _ => rfl⟩
  · exact ⟨fun h => (nomatch h), fun h => absurd h (by omega)⟩

namespace RateLimiter

variable {l : RateLimiter} {now : Nat} {ip : IpAddr}

/-- A recording panics when the end of the ban it starts is out of range. -/
theorem isOk_record (hp : l.poisoned = false) (hs : l.Short) (now : Nat) (ip : IpAddr) :
    (l.record now ip).1.isOk = true ↔ (l.config.banAfterAttempts.toNat ≤ (l.recorded now ip).length →
      (checkedAdd now (fromSecs l.config.banDurationSeconds)).isSome = true) := by
  rcases record_cases now ip hp (hs.recorded_lt now ip) with ⟨hb, ⟨u, hu, hrec⟩ | ⟨hn, e, hrec⟩⟩ | ⟨hb, hrec⟩
  · rw [hrec, hu]
    exact ⟨fun _ _ => rfl, fun _ => rfl⟩
  · rw [hrec, hn]
    exact ⟨fun h => (nomatch h), fun h => (nomatch h hb)⟩
  · rw [hrec]
    exact ⟨fun _ hle => absurd hle (by omega), fun _ => rfl⟩

/-- A recording that does not panic leaves the lock sound and the entries short. -/
theorem record_keeps (hpos : 0 < l.config.banAfterAttempts.toNat) (hp : l.poisoned = false) (hs : l.Short)
    (hok : (l.record now ip).1.isOk = true) : (l.record now ip).2.poisoned = false ∧ (l.record now ip).2.Short := by
  rcases record_cases now ip hp (hs.recorded_lt now ip) with ⟨hb, ⟨u, hu, hrec⟩ | ⟨hn, e, hrec⟩⟩ | ⟨hb, hrec⟩
  · rw [hrec]
    exact ⟨hp, hs.put hpos⟩
  · rw [hrec] at hok
    cases hok
  · rw [hrec]
    exact ⟨hp, hs.put hb⟩

end RateLimiter

variable {b : Build} {c : TimeConfig} {s : TimedDaemon}

theorem TimeConfig.validate_ok (h : c.validate = .ok ()) : c.rateLimit.validate = .ok () := by
  unfold TimeConfig.validate at h
  obtain ⟨-, h⟩ := ensure_bind_ok.1 h
  cases hr : c.rateLimit.validate with
  | ok u => rfl
  | error e =>
    rw [hr] at h
    cases h

/-- The daemon starts with what the calls keep. -/
theorem Timely.start (hc : c.validate = .ok ()) (hs : s.Started c) : Timely c s := by
  obtain ⟨hmax, -, hle, -⟩ := RateLimitConfig.validate_ok (TimeConfig.validate_ok hc)
  obtain ⟨hlimiter, hstore⟩ := hs
  constructor
  case config => rw [hlimiter]; rfl
  case sound => rw [hlimiter]; rfl
  case short =>
    rw [hlimiter]
    exact fun _ => hmax.trans_le hle
  case timeout => rw [hstore]; rfl

theorem timeSafe_checkAndRecord (h : Timely c s) (ip : IpAddr) :
    TimeSafe c s (.checkAndRecord ip) ↔ Representable c s (.checkAndRecord ip) := by
  have hrecord := RateLimiter.isOk_record (l := s.limiter.sweepBans s.clock) h.sound h.short s.clock ip
  rw [checkedAdd_isSome] at hrecord
  unfold TimeSafe TimedCall.run Representable TimedDaemon.BanDue
  simp only
  rw [run_checkAndRecord, ← h.config]
  cases hban : s.limiter.checkBan s.clock ip with
  | some result => exact ⟨fun _ hdue => (nomatch hdue.1), fun _ => rfl⟩
  | none => exact hrecord.trans ⟨fun hfit hdue => hfit hdue.2, fun hfit hle => hfit ⟨rfl, hle⟩⟩

/-- A login stores the session, or panics when its end is out of range. -/
theorem exec_createAdminSession (timeout : Nat) (idDraws csrfDraws : Nat → Fin sessionCharset.length) (d : Desk) :
    Fallible.exec Desk.exec (createAdminSession timeout idDraws csrfDraws) d =
      match checkedAdd d.clock timeout with
      | none => (.error (.panic "overflow when adding duration to instant"), d)
      | some expiresAt =>
        let sessionId := generateSessionToken sessionIdLen idDraws
        let data : SessionData := ⟨expiresAt, generateSessionToken sessionIdLen csrfDraws⟩
        (.ok sessionId, { d with store := d.store.insert sessionId data }) := by
  have hnow : Fallible.exec Desk.exec (store .now) d = (.ok d.clock, d) := rfl
  unfold createAdminSession
  simp only
  rw [Fallible.exec_bind_ok _ hnow]
  cases checkedAdd d.clock timeout with
  | none => rfl
  | some expiresAt => rfl

theorem isOk_createAdminSession (timeout : Nat) (idDraws csrfDraws : Nat → Fin sessionCharset.length) (d : Desk) :
    (Fallible.exec Desk.exec (createAdminSession timeout idDraws csrfDraws) d).1.isOk =
      (checkedAdd d.clock timeout).isSome := by
  rw [exec_createAdminSession]
  cases checkedAdd d.clock timeout with
  | none => rfl
  | some expiresAt => rfl

theorem timeSafe_create (h : Timely c s) (idDraws csrfDraws : Nat → Fin sessionCharset.length) :
    TimeSafe c s (.create idDraws csrfDraws) ↔ Representable c s (.create idDraws csrfDraws) := by
  unfold TimeSafe TimedCall.run Representable
  simp only
  rw [isOk_createAdminSession, h.timeout, checkedAdd_isSome]

theorem timeSafe_cleanup (ht : c.InToml) (env : Op → Option Err) :
    TimeSafe c s (.cleanup env) ↔ Representable c s (.cleanup env) := by
  have hgrace := ht.gracePeriod
  unfold TimeSafe TimedCall.run Representable
  simp only
  by_cases hfit : FitsI64 (-c.session.gracePeriodSeconds)
  · rw [exec_cleanupPass_of_fits hfit]
    refine ⟨fun _ _ _ hmin => ?_, fun _ => rfl⟩
    unfold FitsI64 at hfit
    omega
  · rw [isOk_cleanupPass_of_not_fits hfit]
    have hmin : c.session.gracePeriodSeconds = -9223372036854775808 := by
      unfold FitsI64 at hfit hgrace
      omega
    exact ⟨fun hno hnone hactive => absurd hactive (hno hnone), fun hno hnone hactive => hno hnone hactive hmin⟩

/-- Every call is safe exactly when what it computes is representable. -/
theorem timeSafe_call_iff (ht : c.InToml) (h : Timely c s) : ∀ k, TimeSafe c s k ↔ Representable c s k
  | .checkAndRecord ip => timeSafe_checkAndRecord h ip
  | .create idDraws csrfDraws => timeSafe_create h idDraws csrfDraws
  | .cleanup env => timeSafe_cleanup ht env
  | .meanwhile _ _ => ⟨fun _ => trivial, fun _ => rfl⟩

/-- A safe call keeps what the next calls rely on. -/
theorem Timely.next (hpos : 0 < c.rateLimit.banAfterAttempts.toNat) (h : Timely c s) :
    ∀ k, TimeSafe c s k → Timely c (k.run b c s).2
  | .checkAndRecord ip, hsafe => by
    unfold TimeSafe TimedCall.run at hsafe
    simp only at hsafe
    rw [run_checkAndRecord] at hsafe
    show Timely c { s with limiter := ((checkAndRecord ip).run Gate.exec ⟨s.clock, s.limiter⟩).2.limiter }
    rw [run_checkAndRecord]
    cases hban : s.limiter.checkBan s.clock ip with
    | some result => exact h
    | none =>
      rw [hban] at hsafe
      have hkeep := RateLimiter.record_keeps (l := s.limiter.sweepBans s.clock) (h.config ▸ hpos) h.sound h.short hsafe
      have hconfig := RateLimiter.config_record (s.limiter.sweepBans s.clock) s.clock ip
      exact ⟨hconfig.trans h.config, hkeep.1, hkeep.2, h.timeout⟩
  | .create idDraws csrfDraws, _ => by
    refine ⟨h.config, h.sound, h.short, ?_⟩
    show (Fallible.exec Desk.exec (createAdminSession s.store.timeout idDraws csrfDraws) _).2.store.timeout = _
    rw [exec_createAdminSession]
    split
    · exact h.timeout
    · exact h.timeout
  | .cleanup _, _ => ⟨h.config, h.sound, h.short, h.timeout⟩
  | .meanwhile _ _, _ => ⟨h.config, h.sound, h.short, h.timeout⟩

/-- In every run with a configuration that passes the validation. -/
theorem timeSafe_iff (b : Build) {c : TimeConfig} (hc : c.validate = .ok ()) (ht : c.InToml) {s : TimedDaemon}
    (hs : (timing b c).init s) (calls : List TimedCall) :
    (timing b c).Along (TimeSafe c) s calls ↔ (timing b c).Along (Representable c) s calls := by
  obtain ⟨hmax, -, hle, -⟩ := RateLimitConfig.validate_ok (TimeConfig.validate_ok hc)
  have hstep : ∀ s k s', Timely c s → TimeSafe c s k → (timing b c).step s k = some s' → Timely c s' := by
    intro s k s' h hsafe hs'
    cases hs'
    exact h.next (hmax.trans_le hle) k hsafe
  exact Machine.along_iff (fun s k h => timeSafe_call_iff ht h k) hstep calls (.start hc hs)

theorem timing_along_cons (b : Build) (c : TimeConfig) (P : TimedDaemon → TimedCall → Prop) (s : TimedDaemon)
    (k : TimedCall) (ks : List TimedCall) :
    (timing b c).Along P s (k :: ks) ↔ P s k ∧ (timing b c).Along P (k.run b c s).2 ks :=
  and_congr_right fun _ => ⟨fun h => h _ rfl, fun h s' hs' => by cases hs'; exact h⟩

/-- An ordinary configuration. -/
def TimeConfig.ordinary : TimeConfig where
  sessionTimeoutSeconds := 3600
  rateLimit := ⟨1, 60, 2, 900⟩
  session := ⟨60, 10, 90, 365⟩

/-- A second after the daemon was started, with the first customer online. -/
def TimedDaemon.young (c : TimeConfig) : TimedDaemon :=
  ⟨1000000000, .new c.rateLimit, .new c.sessionTimeoutSeconds, .firstSale⟩

def sameDraw (_ : Nat) : Fin sessionCharset.length := ⟨7, by decide⟩

/-- A client tries two codes and is banned, the admin logs in, and an hour later the ticker looks for ended
sessions. -/
def anHour : List TimedCall :=
  [.checkAndRecord (.v4 0x0A0A0005#32), .checkAndRecord (.v4 0x0A0A0005#32), .create sameDraw sameDraw,
    .meanwhile (fromSecs 3600) (World.firstSale.later 3600), .cleanup fun _ => none]

theorem timeSafe_anHour :
    (timing .release .ordinary).Along (TimeSafe .ordinary) (.young .ordinary) anHour := by
  have hin : TimeConfig.ordinary.InToml :=
    ⟨by decide, by decide, by decide, by decide, by decide, by decide, by decide⟩
  apply (timeSafe_iff .release rfl hin ⟨rfl, rfl⟩ anHour).2
  refine (timing_along_cons ..).2 ⟨fun _ => by decide, ?_⟩
  refine (timing_along_cons ..).2 ⟨fun _ => by decide, ?_⟩
  refine (timing_along_cons ..).2 ⟨show _ ≤ _ by decide, ?_⟩
  refine (timing_along_cons ..).2 ⟨trivial, ?_⟩
  exact (timing_along_cons ..).2 ⟨fun _ _ => by decide, trivial⟩

/-- A configuration that passes the validation as well. -/
def TimeConfig.boundless : TimeConfig where
  sessionTimeoutSeconds := 9223372036854775807
  rateLimit := ⟨1, 60, 1, 9223372036854775807⟩
  session := ⟨60, -9223372036854775808, 90, 365⟩

theorem boundless_not_timeSafe : TimeConfig.boundless.validate = .ok () ∧ TimeConfig.boundless.InToml ∧
    (TimedDaemon.young .boundless).Started .boundless ∧
    ¬ (timing .release .boundless).Along (TimeSafe .boundless) (.young .boundless)
      [.checkAndRecord (.v4 0x0A0A0005#32)] ∧
    ¬ (timing .release .boundless).Along (TimeSafe .boundless) (.young .boundless)
      [.create sameDraw sameDraw] ∧
    ¬ (timing .release .boundless).Along (TimeSafe .boundless) (.young .boundless) [.cleanup fun _ => none] := by
  refine ⟨rfl, ⟨by decide, by decide, by decide, by decide, by decide, by decide, by decide⟩, ⟨rfl, rfl⟩, ?_, ?_, ?_⟩
  · rintro ⟨h, -⟩
    exact Bool.false_ne_true h
  · rintro ⟨h, -⟩
    exact Bool.false_ne_true h
  · rintro ⟨h, -⟩
    exact Bool.false_ne_true h

end Didicafe
