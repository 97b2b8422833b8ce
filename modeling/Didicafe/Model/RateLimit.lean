/-
The rate limiter of the login attempts (`services/rate_limit.rs`): its configuration, its two maps, the sections of
`check_and_record` that hold a lock, and the call as a program over them.
-/
import Didicafe.Lib.Effect
import Didicafe.Lib.HashMap
import Didicafe.Model.Config
import Didicafe.Model.Net

namespace Didicafe

open Effect

structure RateLimitConfig where
  maxAuthAttempts : UInt32
  authWindowSeconds : UInt64
  banAfterAttempts : UInt32
  banDurationSeconds : UInt64
deriving DecidableEq, Repr

/-- The rate limit checks of `Config::validate`. -/
def RateLimitConfig.validate (c : RateLimitConfig) : Except Err Unit := do
  ensure (0 < c.maxAuthAttempts) "rate_limit.max_auth_attempts must be > 0"
  ensure (0 < c.authWindowSeconds) "rate_limit.auth_window_seconds must be > 0"
  ensure (c.maxAuthAttempts ≤ c.banAfterAttempts) "rate_limit.ban_after_attempts must be >= max_auth_attempts"
  ensure (0 < c.banDurationSeconds) "rate_limit.ban_duration_seconds must be > 0"

/-! ## Monotonic time

An `Instant` is the number of nanoseconds since some fixed moment, a `Duration` a number of nanoseconds. -/

/-- `Duration::from_secs`. -/
def fromSecs (s : UInt64) : Nat := s.toNat * 1000000000

/-- `Duration::as_secs`. -/
def asSecs (d : Nat) : Nat := d / 1000000000

/-- `Instant + Duration`, none where it panics: the seconds of an instant are an `i64`. -/
def checkedAdd (t d : Nat) : Option Nat :=
  if (t + d) / 1000000000 < 2 ^ 63 then some (t + d) else none

/-! ## The limiter -/

inductive RateLimitResult where
  | allowed
  | throttled
  | banned (retryAfterSeconds : Nat)
deriving DecidableEq, Repr

/-- `poisoned` says that a call panicked with the lock of `attempts` held. -/
structure RateLimiter where
  attempts : HashMap IpAddr (List Nat)
  bans : HashMap IpAddr Nat
  config : RateLimitConfig
  poisoned : Bool

namespace RateLimiter

def new (config : RateLimitConfig) : RateLimiter := ⟨∅, ∅, config, false⟩

def window (l : RateLimiter) : Nat := fromSecs l.config.authWindowSeconds

/-- `timestamps.retain(|&ts| now.duration_since(ts) < window)`. -/
def young (window now : Nat) (timestamps : List Nat) : List Nat :=
  timestamps.filter fun ts => now - ts < window

/-- The sweep is due when the number of addresses is a positive multiple of 256. -/
def SweepDue (l : RateLimiter) : Prop := l.attempts.len ≠ 0 ∧ l.attempts.len % 256 = 0

instance (l : RateLimiter) : Decidable l.SweepDue := by unfold SweepDue; infer_instance

/-- The attempts after the periodic sweep. -/
def swept (l : RateLimiter) (now : Nat) : HashMap IpAddr (List Nat) :=
  if l.SweepDue then
    l.attempts.retain fun _ timestamps =>
      let timestamps := young l.window now timestamps
      if timestamps.isEmpty then none else some timestamps
  else l.attempts

/-- The first section: the time left of a ban of `ip`. -/
def checkBan (l : RateLimiter) (now : Nat) (ip : IpAddr) : Option RateLimitResult :=
  match l.bans.lookup ip with
  | some banUntil => if now < banUntil then some (.banned (max (asSecs (banUntil - now)) 1)) else none
  | none => none

/-- The second section: expired bans are removed. -/
def sweepBans (l : RateLimiter) (now : Nat) : RateLimiter :=
  { l with bans := l.bans.retain fun _ banUntil => if now < banUntil then some banUntil else none }

/-- The third section: the attempt is recorded and the thresholds are checked. -/
def record (l : RateLimiter) (now : Nat) (ip : IpAddr) : Except Err RateLimitResult × RateLimiter :=
  if l.poisoned then (.error (.panic "attempts lock poisoned"), l)
  else
    let attempts := l.swept now
    let entry := young l.window now ((attempts.lookup ip).getD []) ++ [now]
    let count := UInt32.ofNat entry.length
    -- the ban threshold comes first, and a ban clears the attempts
    if l.config.banAfterAttempts ≤ count then
      match checkedAdd now (fromSecs l.config.banDurationSeconds) with
      -- the panic leaves the lock poisoned and the attempt recorded
      | none =>
        (.error (.panic "overflow when adding duration to instant"),
          { l with attempts := attempts.insert ip entry, poisoned := true })
      | some banUntil =>
        (.ok (.banned l.config.banDurationSeconds.toNat),
          { l with attempts := attempts.insert ip [], bans := l.bans.insert ip banUntil })
    else if l.config.maxAuthAttempts < count then (.ok .throttled, { l with attempts := attempts.insert ip entry })
    else (.ok .allowed, { l with attempts := attempts.insert ip entry })

end RateLimiter

/-! ## A call -/

/-- The clock is read outside of the locks. -/
inductive LimiterOp where
  | now
  | checkBan (now : Nat) (ip : IpAddr)
  | sweepBans (now : Nat)
  | record (now : Nat) (ip : IpAddr)
deriving DecidableEq

abbrev LimiterOp.Out : LimiterOp → Type
  | .now => Nat
  | .checkBan _ _ => Option RateLimitResult
  | .sweepBans _ => Unit
  | .record _ _ => Except Err RateLimitResult

/-- The monotonic clock and the limiter. -/
structure Gate where
  clock : Nat
  limiter : RateLimiter

/-- One operation. -/
def Gate.exec : Handler LimiterOp LimiterOp.Out Gate
  | .now, g => (g.clock, g)
  | .checkBan now ip, g => (g.limiter.checkBan now ip, g)
  | .sweepBans now, g => ((), { g with limiter := g.limiter.sweepBans now })
  | .record now ip, g => ((g.limiter.record now ip).1, { g with limiter := (g.limiter.record now ip).2 })

abbrev Attempt := Prog LimiterOp LimiterOp.Out (Except Err RateLimitResult)

def checkAndRecord (ip : IpAddr) : Attempt := do
  let now ← Prog.perform LimiterOp.now
  let ban ← Prog.perform (LimiterOp.checkBan now ip)
  match ban with
  | some result => pure (.ok result)
  | none =>
    let _ ← Prog.perform (LimiterOp.sweepBans now)
    Prog.perform (LimiterOp.record now ip)

end Didicafe
