/-
The database under any interleaving of its statements, each of them one step. No statement gives a device a
second active session, so that the look-up by MAC returns exactly the active session of the device as long as
its expiry is after the database clock.
-/
import Didicafe.Lib.Runs
import Didicafe.Store.Rows

namespace Didicafe

open Runs Table

/-! ## One statement -/

namespace Tables

variable {t : Tables}

theorem OnePerMac.setSessionStatus (h : t.OnePerMac) (p : SessionRow → Bool) {st : SessionStatus}
    (hst : st ≠ .active) : (t.setSessionStatus p st).OnePerMac :=
  h.updateWhere (fun a ha => by simp [SessionRow.isActive, hst] at ha) fun _ => rfl

theorem OnePerMac.createSession (h : t.OnePerMac) (now tokenId : Int) (mac ip expiresAt : String) :
    (t.createSession now tokenId mac ip expiresAt).2.OnePerMac := by
  cases hid : (t.createSession now tokenId mac ip expiresAt).1 with
  | ok id => exact h.opened (t.newSession now tokenId mac ip expiresAt) fun s => (active_createSession hid s).1
  | error e =>
    rw [createSession_error hid]
    exact h

end Tables

/-- Every statement keeps one active session per device. -/
theorem Sql.onePerMac {t : Tables} (h : t.OnePerMac) (now : Int) (q : Sql) : (q.run now t).2.OnePerMac := by
  cases q with
  | createSession tokenId mac ip expiresAt => exact Tables.OnePerMac.createSession h now tokenId mac ip expiresAt
  | expireSession | disconnectSession => exact h.setSessionStatus _ (by decide)
  | deleteEndedSessions => exact Unique.deleteWhere h
  | createToken =>
    simp only [Sql.run, Tables.createToken]
    split
    · exact h
    · split <;> exact h
  | _ => exact h

/-! ## The look-up by MAC -/

/-- The expiry is after `now`, as SQLite compares it with `datetime('now')`. -/
def SessionRow.EndsAfter (s : SessionRow) (now : Int) : Prop := datetimeNow now < s.expiresAt

/-- For the timestamps of four-digit years, that means the instants. -/
theorem SessionRow.endsAfter_iff {s : SessionRow} {now e : Int} (hs : s.expiresAt = formatTimestamp e)
    (hn : FourDigits (now / nanosPerSec)) (he : FourDigits e) :
    s.expiry = some (e * nanosPerSec) ∧ (s.EndsAfter now ↔ now < e * nanosPerSec) := by
  constructor
  · unfold expiry
    rw [hs, parseTimestamp_formatTimestamp he.inRange]; rfl
  · unfold EndsAfter
    rw [hs, datetimeNow_lt hn he]

namespace Tables

variable {t : Tables} {now : Int} {mac : String} {s : SessionRow}

theorem sessionByMac_of_active (hs : t.Schema) (hu : t.OnePerMac) (ha : t.Active s) (hm : s.macAddress = mac)
    (hend : s.EndsAfter now) : ∃ k, t.sessionByMac now mac = some k ∧ k.toSessionRow = s := by
  have hp : (s.macAddress == mac && s.isActive && decide (datetimeNow now < s.expiresAt)) = true := by
    simp [hm, ha.2, show datetimeNow now < s.expiresAt from hend]
  obtain ⟨x, hx, -⟩ := exists_sessionsWhere (p := fun s => s.macAddress == mac && s.isActive &&
    decide (datetimeNow now < s.expiresAt)) hs ha.1 hp
  cases hk : t.sessionByMac now mac with
  | some k =>
    obtain ⟨hka, hkm, -⟩ := sessionByMac_some hk
    exact ⟨k, rfl, hu.eq hka ha (hkm.trans hm.symm)⟩
  -- the row itself is among the matches
  | none =>
    unfold sessionByMac at hk
    split at hk
    · rename_i hl
      rw [hl] at hx; cases hx
    · cases hk

theorem sessionByMac_eq_none (h : ∀ s, t.Active s → s.macAddress = mac → ¬ s.EndsAfter now) :
    t.sessionByMac now mac = none := by
  cases hk : t.sessionByMac now mac with
  | none => rfl
  | some k =>
    obtain ⟨ha, hm, hend⟩ := sessionByMac_some hk
    exact absurd hend (h _ ha hm)

end Tables

/-! ## All statements -/

/-- The database and its clock. -/
structure Clocked where
  now : Int
  db : Database

inductive StatementEvent where
  | run (q : Sql)
  | elapse (nanos : Nat)

def StatementEvent.step (c : Clocked) : StatementEvent → Option Clocked
  | .run q => some { c with db := (c.db.exec c.now q).2 }
  | .elapse nanos => some { c with now := c.now + nanos }

/-- Statements on a database that starts without active sessions. -/
def statements : Machine Clocked StatementEvent := ⟨fun c => ∀ s, ¬ c.db.tables.Active s, StatementEvent.step⟩

theorem onePerMac_of_reach {c : Clocked} (h : Reach statements Free c) : c.db.tables.OnePerMac := by
  apply h.invariant (I := fun c => c.db.tables.OnePerMac)
  · intro c h0
    exact Tables.onePerMac_of fun a _ ha => absurd ha (h0 a)
  · intro c e c' hi _ hs
    cases e with
    | run q => cases hs; exact Sql.onePerMac hi _ q
    | elapse nanos => cases hs; exact hi

/-- In every state, a device has at most one active session; at the clock of the state, `get_session_by_mac` returns
that row when its expiry is after the clock, and otherwise nothing. In the years of four digits, a timestamp is after
the clock when its instant is. -/
theorem liveSession_of_reach {c : Clocked} (h : Reach statements Free c) :
    (∀ a b, c.db.tables.Active a → c.db.tables.Active b → a.macAddress = b.macAddress → a = b) ∧
    (∀ mac s, c.db.tables.Active s → s.macAddress = mac → s.EndsAfter c.now →
      ∃ k, (c.db.exec c.now (.getSessionByMac mac)).1 = .ok (some k) ∧ k.toSessionRow = s) ∧
    (∀ mac, (∀ s, c.db.tables.Active s → s.macAddress = mac → ¬ s.EndsAfter c.now) →
      (c.db.exec c.now (.getSessionByMac mac)).1 = .ok none) ∧
    ∀ (s : SessionRow) e, s.expiresAt = formatTimestamp e → FourDigits (c.now / nanosPerSec) → FourDigits e →
      s.expiry = some (e * nanosPerSec) ∧ (s.EndsAfter c.now ↔ c.now < e * nanosPerSec) := by
  have hu := onePerMac_of_reach h
  refine ⟨fun a b ha hb => hu.eq ha hb, fun mac s ha hm hend => ?_, fun mac hnone => ?_, fun s e hs hn he => ?_⟩
  · obtain ⟨k, hk, hrow⟩ := Tables.sessionByMac_of_active c.db.schema hu ha hm hend
    exact ⟨k, congrArg Except.ok hk, hrow⟩
  · exact congrArg Except.ok (Tables.sessionByMac_eq_none hnone)
  · exact SessionRow.endsAfter_iff hs hn he

/-- Two tokens on one device, without a cleanup in between: the second session is found at half past eight. -/
def twoSessions : List StatementEvent :=
  [.run (.createSession 1 "02:00:00:00:00:01" "10.0.0.2" "2024-01-01 08:10:00"),
    .run (.redeemToken 1 "2024-01-01 08:10:00"),
    .elapse 1800000000000, .run (.createSession 2 "02:00:00:00:00:01" "10.0.0.2" "2024-01-01 09:30:00")]

def Clocked.opening : Clocked := ⟨1704096000 * nanosPerSec, shop⟩

theorem noActive_shop : ∀ s, ¬ shop.tables.Active s := by
  rintro s ⟨hs, -⟩
  cases hs

/-- The session of the second token. -/
def otherSession : SessionRow :=
  ⟨2, 2, "02:00:00:00:00:01", "10.0.0.2", "2024-01-01 08:30:00", "2024-01-01 09:30:00", .active⟩

theorem liveSession_twoSessions : ∃ c, statements.trace .opening twoSessions = some c ∧
    ∃ k, (c.db.exec c.now (.getSessionByMac "02:00:00:00:00:01")).1 = .ok (some k) ∧ k.toSessionRow = otherSession := by
  have start : Reach statements Free .opening := .start noActive_shop
  refine ⟨_, rfl, (liveSession_of_reach (Machine.reach_trace start (t := twoSessions) rfl)).2.1 _ otherSession
    (by decide) rfl ?_⟩
  unfold SessionRow.EndsAfter
  decide

end Didicafe
