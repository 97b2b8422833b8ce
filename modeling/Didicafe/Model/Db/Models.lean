/-
The rows of the database and what the queries return: a token with its plan joined, a session
with its token and plan joined, a page of tokens, the sales of a day; and the seconds a session has left.
-/
import Didicafe.Model.Time

namespace Didicafe

inductive TokenStatus where
  | unused
  | active
  | expired
  | revoked
deriving DecidableEq, Repr

def TokenStatus.text : TokenStatus → String
  | .unused => "unused"
  | .active => "active"
  | .expired => "expired"
  | .revoked => "revoked"

/-- `TokenStatus::ALL`. -/
def TokenStatus.all : List String := ["unused", "active", "expired", "revoked"]

inductive SessionStatus where
  | active
  | expired
  | disconnected
deriving DecidableEq, Repr

structure Plan where
  id : Int
  name : String
  durationMinutes : Int
  priceAriary : Int
  active : Bool
  createdAt : String
deriving DecidableEq, Repr

/-- A row of table `token`. -/
structure TokenRow where
  id : Int
  code : String
  name : Option String
  planId : Int
  status : TokenStatus
  createdAt : String
  redeemedAt : Option String
  expiresAt : Option String
deriving DecidableEq, Repr

/-- A token joined with its plan. -/
structure Token extends TokenRow where
  durationMinutes : Int
  planName : String
deriving DecidableEq, Repr

/-- A row of table `session`. -/
structure SessionRow where
  id : Int
  tokenId : Int
  macAddress : String
  ipAddress : String
  startedAt : String
  expiresAt : String
  status : SessionStatus
deriving DecidableEq, Repr

/-- A session joined with its token and plan. -/
structure Session extends SessionRow where
  tokenCode : Option String
  tokenName : Option String
  planName : Option String
deriving DecidableEq, Repr

structure AuditLogEntry where
  id : Int
  timestamp : String
  adminUser : String
  action : String
  targetType : Option String
  targetId : Option Int
  detail : Option String
deriving DecidableEq, Repr

/-- A row of table `setting`. -/
structure Setting where
  key : String
  value : String
deriving DecidableEq, Repr

structure DailyStats where
  tokensSold : Int
  activeSessions : Int
  revenueAriary : Int
deriving DecidableEq, Repr

/-- Per-day stats for the weekly rolling chart. -/
structure DayStats where
  date : String
  tokensSold : Int
  revenueAriary : Int
deriving DecidableEq, Repr

structure TokenPage where
  tokens : List Token
  total : Int
  page : Int
  perPage : Int
  statusFilter : String
deriving DecidableEq, Repr

def TokenPage.totalPages (p : TokenPage) : Int :=
  if p.perPage ≤ 0 then 1 else (p.total + p.perPage - 1) / p.perPage

/-- The instant a token's `expires_at` names, if it is set and well-formed. -/
def TokenRow.expiry (r : TokenRow) : Option Int := (r.expiresAt.bind parseTimestamp).map (· * nanosPerSec)

namespace SessionRow

def isActive (s : SessionRow) : Bool := s.status == .active

/-- The address pair the firewall admits for a session. -/
def pair (s : SessionRow) : String × String := (s.macAddress, s.ipAddress)

/-- The instant `expires_at` names, if it is well-formed. -/
def expiry (s : SessionRow) : Option Int := (parseTimestamp s.expiresAt).map (· * nanosPerSec)

/-- `Session::remaining_seconds` with the clock at `now`. -/
def remainingAt (s : SessionRow) (now : Int) : Int :=
  match parseTimestamp s.expiresAt with
  | none => 0
  | some e => max ((e * nanosPerSec - now).tdiv nanosPerSec) 0

theorem remainingAt_nonneg (s : SessionRow) (now : Int) : 0 ≤ s.remainingAt now := by
  unfold remainingAt
  split <;> omega

theorem remainingAt_of_expiry {s : SessionRow} {e : Int} (h : s.expiry = some e) (now : Int) :
    s.remainingAt now = max ((e - now).tdiv nanosPerSec) 0 := by
  unfold expiry at h
  unfold remainingAt
  cases hp : parseTimestamp s.expiresAt with
  | none => rw [hp] at h; cases h
  | some k => rw [hp] at h; cases h; rfl

/-- The whole seconds left before the expiry, none after it. -/
theorem remainingAt_bounds {s : SessionRow} {e : Int} (h : s.expiry = some e) (now : Int) :
    (now < e → s.remainingAt now * nanosPerSec ≤ e - now ∧ e - now < s.remainingAt now * nanosPerSec + nanosPerSec) ∧
      (e ≤ now → s.remainingAt now = 0) := by
  rw [remainingAt_of_expiry h]
  constructor
  · intro hlt
    rw [Int.tdiv_eq_ediv_of_nonneg (by omega)]
    unfold nanosPerSec; omega
  · intro hle
    rw [show e - now = -(now - e) by omega, Int.neg_tdiv, Int.tdiv_eq_ediv_of_nonneg (by omega)]
    unfold nanosPerSec; omega

/-- An expiry is a whole second. -/
theorem expiry_mod {s : SessionRow} {e : Int} (h : s.expiry = some e) : e % nanosPerSec = 0 := by
  obtain ⟨k, -, rfl⟩ := Option.map_eq_some_iff.1 h
  exact Int.mul_emod_left k nanosPerSec

/-- A session with a positive remaining time has a well-formed expiry. -/
theorem expiry_of_remainingAt_pos {s : SessionRow} {now : Int} (h : 0 < s.remainingAt now) :
    ∃ e, s.expiry = some e := by
  unfold remainingAt at h
  unfold expiry
  cases hp : parseTimestamp s.expiresAt with
  | none => rw [hp] at h; simp at h
  | some k => exact ⟨_, rfl⟩

end SessionRow

end Didicafe
