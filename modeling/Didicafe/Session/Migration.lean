/-
A token that moves from device to device: over any number of migrations its one active session keeps the
expiry it was sold with, and a migration that fails changes nothing.
-/
import Didicafe.Lib.Runs
import Didicafe.Session.Calls

namespace Didicafe

open Effect Runs

variable {w w' : World} {tokenId : Int} {expiresAt : String}

/-- The active session `s` is the only one of its token. -/
structure Sole (w : World) (tokenId : Int) (s : SessionRow) : Prop where
  active : w.Active s
  token : s.tokenId = tokenId
  only : ∀ q, w.Active q → q.tokenId = tokenId → q = s

/-- The session that opens in place of the only one of its token is again the only one. -/
theorem Sole.opened {old new : SessionRow} (h : Sole w tokenId old) (o : Opened w w' (some old) new)
    (ht : new.tokenId = tokenId) : Sole w' tokenId new where
  active := (o.active new).2 (.inr rfl)
  token := ht
  only q hq hid := by
    rcases (o.active q).1 hq with ⟨hq, hne, -⟩ | rfl
    · exact absurd (congrArg some (h.only q hq hid)) hne
    · rfl

/-! ## Migrations in a row -/

inductive Hop where
  | migrate (mac ip : String)
  | elapse (nanos : Nat)

/-- A step leaves what the call leaves, whether it succeeds or fails. -/
def Hop.step (tokenId : Int) (w : World) : Hop → Option World
  | .migrate mac ip => some (Fallible.exec noFault (migrateSession tokenId mac ip) w).2
  | .elapse nanos => some { w with now := w.now + nanos }

/-- The migrations of a token, from a state in which it has exactly one active session, of a given expiry. -/
def hops (tokenId : Int) (expiresAt : String) : Machine World Hop :=
  ⟨fun w => ∃ s, Sole w tokenId s ∧ s.expiresAt = expiresAt, Hop.step tokenId⟩

/-- No firewall call of the migration fails: when it gets that far, it releases and authorizes valid MACs. -/
def FirewallAccepts (tokenId : Int) (w : World) : Hop → Prop
  | .migrate mac _ => ∀ q, w.db.tables.sessionByToken tokenId = some q → 0 < q.remainingAt w.now →
    validateMac q.macAddress = .ok () ∧ validateMac mac = .ok ()
  | .elapse _ => True

/-- What a migration that succeeds leaves of the only session `old` of the token. -/
structure Moved (w w' : World) (tokenId : Int) (old new : SessionRow) (mac ip : String) : Prop where
  sole : Sole w' tokenId new
  pair : new.pair = (mac, ip)
  expiresAt : new.expiresAt = old.expiresAt
  admitted : ∃ e x, new.expiry = some e ∧ w'.set (mac, ip) = some x ∧ x ≤ e
  released : old.pair ≠ (mac, ip) → w'.set old.pair = none
  token : w'.db.tables.token = w.db.tables.token

theorem moved_of_migrateSession {mac ip : String} {id : Int} {old : SessionRow} (hs : Sole w tokenId old)
    (hok : FirewallAccepts tokenId w (.migrate mac ip))
    (h : Fallible.exec noFault (migrateSession tokenId mac ip) w = (.ok id, w')) :
    ∃ new, Moved w w' tokenId old new mac ip := by
  obtain ⟨k, hk, hr, hm, mig⟩ := exec_migrateSession_ok h
  obtain ⟨ha, hid⟩ := Tables.sessionByToken_some hk
  obtain rfl := hs.only _ ha hid
  obtain ⟨new, o, hp, ht, hexp⟩ := mig.opened hk hm
  obtain ⟨e, he⟩ := SessionRow.expiry_of_remainingAt_pos hr
  refine ⟨new, hs.opened o ht, hp, hexp, ⟨e, _, ?_, by rw [mig.set, TimedSet.insert_self], ?_⟩, fun hne => ?_, ?_⟩
  · unfold SessionRow.expiry at he ⊢
    rw [hexp]; exact he
  · -- the seconds left are whole ones before the expiry
    have hb := (SessionRow.remainingAt_bounds he w.now).1
    have hlt : w.now < e := by
      by_contra hle
      have := (SessionRow.remainingAt_bounds he w.now).2 (by omega)
      omega
    rw [asU64_of_nonneg (k.remainingAt_nonneg w.now)]
    have := (hb hlt).1
    omega
  · rw [mig.set, TimedSet.insert_of_ne _ hne, AuthSet.release_valid _ (hok k hk hr).1, TimedSet.erase_self]
  · rw [mig.tables, Tables.token_createSession]; rfl

/-- A migration that fails changes nothing. -/
theorem unmoved_of_migrateSession {mac ip : String} {err : Err} (hok : FirewallAccepts tokenId w (.migrate mac ip))
    (h : Fallible.exec noFault (migrateSession tokenId mac ip) w = (.error err, w')) : w' = w := by
  by_cases hk : ∃ k, w.db.tables.sessionByToken tokenId = some k ∧ 0 < k.remainingAt w.now
  · obtain ⟨k, hk, hr⟩ := hk
    obtain ⟨id, w₁, hw, -⟩ := exec_migrateSession ip hk hr (hok k hk hr).2
    rw [hw] at h; cases h
  · have hnone (k : Session) (hk' : w.db.tables.sessionByToken tokenId = some k) : k.remainingAt w.now ≤ 0 := by
      by_contra hr
      exact hk ⟨k, hk', by omega⟩
    obtain ⟨err', he⟩ := exec_migrateSession_none mac ip hnone
    rw [he] at h; cases h; rfl

theorem sole_of_reach (h : Reach (hops tokenId expiresAt) (FirewallAccepts tokenId) w) :
    ∃ s, Sole w tokenId s ∧ s.expiresAt = expiresAt := by
  apply h.invariant (I := fun w => ∃ s, Sole w tokenId s ∧ s.expiresAt = expiresAt)
  · exact fun _ h0 => h0
  · rintro w (⟨mac, ip⟩ | nanos) w' ⟨s, hs, he⟩ hok hstep
    · cases hx : Fallible.exec noFault (migrateSession tokenId mac ip) w with
      | mk r w₁ =>
        have hstep : some (Fallible.exec noFault (migrateSession tokenId mac ip) w).2 = some w' := hstep
        rw [hx] at hstep
        cases hstep
        cases r with
        | ok id =>
          obtain ⟨new, m⟩ := moved_of_migrateSession hs hok hx
          exact ⟨new, m.sole, m.expiresAt.trans he⟩
        | error err =>
          rw [unmoved_of_migrateSession hok hx]
          exact ⟨s, hs, he⟩
    · cases hstep
      exact ⟨s, ⟨hs.active, hs.token, hs.only⟩, he⟩

/-- In every run of migrations of a token with one active session, the next migration that succeeds moves that session
to the given pair with the same expiry, and the next one that fails changes nothing. -/
theorem migration_of_reach (h : Reach (hops tokenId expiresAt) (FirewallAccepts tokenId) w) (mac ip : String)
    (hok : FirewallAccepts tokenId w (.migrate mac ip)) :
    (∀ id w', Fallible.exec noFault (migrateSession tokenId mac ip) w = (.ok id, w') →
      ∃ old new, Sole w tokenId old ∧ Moved w w' tokenId old new mac ip ∧ new.expiresAt = expiresAt) ∧
    ∀ err w', Fallible.exec noFault (migrateSession tokenId mac ip) w = (.error err, w') → w' = w := by
  constructor
  · intro id w' hx
    obtain ⟨old, hs, he⟩ := sole_of_reach h
    obtain ⟨new, m⟩ := moved_of_migrateSession hs hok hx
    exact ⟨old, new, hs, m, m.expiresAt.trans he⟩
  · intro err w' hx
    exact unmoved_of_migrateSession hok hx

theorem sole_firstSale : Sole .firstSale 1 firstSession :=
  ⟨active_firstSale.2 rfl, rfl, fun _ hq _ => active_firstSale.1 hq⟩

/-- The first customer moves to another device. -/
theorem migration_firstSale : ∃ id w',
    Fallible.exec noFault (migrateSession 1 "02:00:00:00:00:02" "10.0.0.3") .firstSale = (.ok id, w') ∧
      ∃ new, Moved .firstSale w' 1 firstSession new "02:00:00:00:00:02" "10.0.0.3" ∧
      new.expiresAt = "2024-01-01 09:00:00" := by
  have hok : FirewallAccepts 1 .firstSale (.migrate "02:00:00:00:00:02" "10.0.0.3") := by
    intro q hq _
    rw [active_firstSale.1 (Tables.sessionByToken_some hq).1]
    decide
  have start : Reach (hops 1 "2024-01-01 09:00:00") (FirewallAccepts 1) .firstSale :=
    .start ⟨firstSession, sole_firstSale, rfl⟩
  obtain ⟨old, new, hs, m, he⟩ := (migration_of_reach start _ "10.0.0.3" hok).1 _ _ rfl
  rw [active_firstSale.1 hs.active] at m
  exact ⟨_, _, rfl, new, m, he⟩

end Didicafe
