/-
The expiry step of the cleanup ticker: which sessions a pass ends, and what is left in the firewall
when its deletions fail.

The remaining time the pass compares is never negative, so with a grace period it ends no session at
all, and its deauthorization reports no failed deletion, so it ends sessions that stay admitted.
-/
import Didicafe.Session.Passes

namespace Didicafe

open Effect

variable {env : Op → Option Err} {w w' : World} {grace : Int}

/-! ## Which sessions a pass ends -/

/-- What a pass is to leave: no active session past its grace period, the ones it ended without their pair
and with their token expired, and everything else as it was. -/
structure CleanupExact (grace : Int) (w w' : World) : Prop where
  noneLeft : ∀ s e, w'.Active s → s.expiry = some e → w.now < e + grace * nanosPerSec
  ended : ∀ s, w.Active s → ¬ w'.Active s → { s with status := .expired } ∈ w'.db.tables.session ∧
    w'.set s.pair = none ∧ ∀ r ∈ w'.db.tables.token, r.id = s.tokenId → r.status = .expired
  kept : ∀ s e, w.Active s → s.expiry = some e → w.now < e + grace * nanosPerSec → w'.Active s ∧
    w'.set s.pair = w.set s.pair ∧ ∀ r ∈ w.db.tables.token, r.id = s.tokenId → r ∈ w'.db.tables.token
  closed : ∀ s ∈ w.db.tables.session, s.isActive = false → s ∈ w'.db.tables.session

/-- A pass leaves what it is to leave when it finds overdue exactly the sessions past the grace period. -/
theorem Cleaned.exact (c : Cleaned (fun _ => none) grace w w') (hmac : w.db.tables.OnePerMac)
    (htok : w.db.tables.OnePerToken) (hov : ∀ s e, w.Active s → s.expiry = some e →
      (s ∈ w.db.tables.overdue grace w.now ↔ e + grace * nanosPerSec ≤ w.now)) : CleanupExact grace w w' where
  noneLeft := fun s e hs he => by
    obtain ⟨ha, hn⟩ := (c.active s).1 hs
    have := (not_congr (hov s e ha he)).1 hn
    omega
  ended := fun s hs hn => by
    have hm : s ∈ w.db.tables.overdue grace w.now := not_not.1 fun hm => hn ((c.active s).2 ⟨hs, hm⟩)
    rw [c.tables, c.set]
    exact ⟨Tables.mem_session_endSessions hs.1 hm,
      TimedSet.eraseAll_of_mem _ (List.mem_map.2 ⟨s, List.mem_filter.2 ⟨hm, rfl⟩, rfl⟩),
      fun r hr hid => Tables.status_of_mem_endSessions hr hm hid⟩
  kept := fun s e hs he hlt => by
    have hm : s ∉ w.db.tables.overdue grace w.now := fun hm => by have := (hov s e hs he).1 hm; omega
    refine ⟨(c.active s).2 ⟨hs, hm⟩, c.set_of_not_mem hmac hs hm, fun r hr hid => ?_⟩
    rw [c.tables]
    exact Tables.mem_token_endSessions htok (fun g hg => (Tables.mem_overdue.1 hg).1) hs hm hr hid
  closed := fun s hs hn => by
    rw [c.tables]
    apply Tables.mem_session_endSessions_of_ne hs
    intro g hg hgs
    have hact := (Tables.mem_overdue.1 hg).1
    rw [Table.eq_of_key w.db.schema.sessionId hact.1 hs hgs] at hact
    rw [hact.2] at hn; cases hn

theorem overdue_of_pos (hg : 0 < grace) (s : SessionRow) : s ∉ w.db.tables.overdue grace w.now := fun hm => by
  have := (SessionRow.endedBy_iff.1 (Tables.mem_overdue.1 hm).2).1
  have := s.remainingAt_nonneg w.now
  omega

/-- Without a grace period, at a whole second, the overdue sessions are those whose expiry has come. -/
theorem mem_overdue_zero (hnow : w.now % nanosPerSec = 0) {s : SessionRow} {e : Int} (hs : w.Active s)
    (hv : validateMac s.macAddress = .ok ()) (he : s.expiry = some e) :
    s ∈ w.db.tables.overdue 0 w.now ↔ e ≤ w.now := by
  have hb := SessionRow.remainingAt_bounds he w.now
  have hmod := SessionRow.expiry_mod he
  rw [Tables.mem_overdue, SessionRow.endedBy_iff]
  unfold nanosPerSec at *
  constructor
  · rintro ⟨-, hr, -⟩
    by_contra hlt
    have := (hb.1 (by omega)).2
    omega
  · intro hle
    have := hb.2 hle
    exact ⟨hs, by omega, hv⟩

/-- A pass in which nothing fails leaves what it is to leave exactly when there is no grace period or no
session is past it. -/
theorem cleanup_exact_iff (hg : 0 ≤ grace) (hnow : w.now % nanosPerSec = 0) (hmac : w.db.tables.OnePerMac)
    (htok : w.db.tables.OnePerToken) (hv : ∀ s, w.Active s → validateMac s.macAddress = .ok ()) :
    CleanupExact grace w ((cleanupPass grace).run noFault w).2 ↔
      grace = 0 ∨ ∀ s e, w.Active s → s.expiry = some e → w.now < e + grace * nanosPerSec := by
  have c : Cleaned (fun _ => none) grace w ((cleanupPass grace).run noFault w).2 :=
    run_cleanupPass (fun _ => rfl) grace w
  constructor
  · intro h
    by_cases h0 : grace = 0
    · exact .inl h0
    · exact .inr fun s e hs he => c.now ▸ h.noneLeft s e ((c.active s).2 ⟨hs, overdue_of_pos (by omega) s⟩) he
  · intro h
    apply c.exact hmac htok
    intro s e hs he
    by_cases h0 : grace = 0
    · subst h0
      rw [mem_overdue_zero hnow hs (hv s hs) he]
      simp
    · have hlt := h.resolve_left h0 s e hs he
      exact ⟨fun hm => absurd hm (overdue_of_pos (by omega) s), fun hle => by omega⟩

/-- The first customer's session an hour past its end. -/
def World.overtime : World := World.firstSale.later 7200

theorem validateMac_overtime : ∀ s, World.overtime.Active s → validateMac s.macAddress = .ok () :=
  fun s hs => by rw [active_firstSale.1 hs]; decide

theorem cleanup_exact_overtime : CleanupExact 0 .overtime ((cleanupPass 0).run noFault .overtime).2 :=
  (cleanup_exact_iff (by decide) (by decide) (by decide) (by decide) validateMac_overtime).2 (.inl rfl)

/-- With a grace period of ten seconds the session an hour past its end is left active. -/
theorem cleanup_misses_overtime : (0 : Int) ≤ 10 ∧ World.overtime.now % nanosPerSec = 0 ∧
    World.overtime.db.tables.OnePerMac ∧ World.overtime.db.tables.OnePerToken ∧
    (∀ s, World.overtime.Active s → s.expiry.isSome ∧ validateMac s.macAddress = .ok ()) ∧
    ¬ CleanupExact 10 .overtime ((cleanupPass 10).run noFault .overtime).2 := by
  refine ⟨by decide, by decide, by decide, by decide, fun s hs => ?_, fun h => ?_⟩
  · rw [active_firstSale.1 hs]; decide
  · exact absurd (h.noneLeft firstSession _ (by decide) (expiry_firstSession.2 rfl)) (by decide)

/-! ## Deletions that fail -/

/-- The deletion of a session's pair fails although the pair is in the set. -/
def RemovalFails (env : Op → Option Err) (w : World) (s : SessionRow) : Prop :=
  removable env s = false ∧ w.set.Mem w.now s.pair

/-- What disconnecting is to guarantee: after `Ok` the pair of the session is gone, and a session whose pair
could not be deleted stays active. -/
def DisconnectSound (env : Op → Option Err) (w : World) (sessionId : Int) : Prop :=
  ∀ s ∈ w.db.tables.session, s.id = sessionId →
    ((Fallible.exec (failing env) (disconnect sessionId) w).1 = .ok () →
      ¬ (Fallible.exec (failing env) (disconnect sessionId) w).2.set.Mem w.now s.pair) ∧
    (RemovalFails env w s → s.isActive = true → (Fallible.exec (failing env) (disconnect sessionId) w).2.Active s)

/-- What a pass is to guarantee, for every session. -/
def CleanupSound (env : Op → Option Err) (grace : Int) (w : World) : Prop :=
  ∀ s ∈ w.db.tables.session,
    (s.status ≠ .expired →
      { s with status := .expired } ∈ ((cleanupPass grace).run (failing env) w).2.db.tables.session →
      ¬ ((cleanupPass grace).run (failing env) w).2.set.Mem w.now s.pair) ∧
    (RemovalFails env w s → s.isActive = true → ((cleanupPass grace).run (failing env) w).2.Active s)

/-- The end of `disconnect`, for the session it found. -/
theorem exec_disconnect (hsql : ∀ q, env (.sql q) = none) {s : SessionRow} (hs : s ∈ w.db.tables.session) :
    (validateMac s.macAddress = .ok () → ∃ w', Fallible.exec (failing env) (disconnect s.id) w = (.ok (), w') ∧
      w'.set = (if removable env s then w.set.erase s.pair else w.set) ∧
      w'.db.tables = w.db.tables.disconnectSession s.id) ∧
    (validateMac s.macAddress ≠ .ok () → ∃ e, Fallible.exec (failing env) (disconnect s.id) w = (.error e, w)) := by
  obtain ⟨k, hk, rfl⟩ := Tables.sessionById_of_mem w.db.schema hs
  unfold disconnect
  rw [Fallible.exec_bind_ok _ (exec_query w (hsql _) (r := .ok (some k)) (by rw [Sql.run, hk]))]
  simp only
  constructor
  · intro hm
    rw [Fallible.exec_bind_ok _ (exec_deauthorizeClient env w _ hm), exec_sql_of_none _ (hsql _)]
    unfold removable
    refine ⟨_, rfl, ?_⟩
    cases env (.nft (.deleteElement k.macAddress k.ipAddress)) <;> exact ⟨rfl, rfl⟩
  · intro hm
    obtain ⟨e, he⟩ := exec_deauthorizeClient_invalid env w k.ipAddress hm
    exact ⟨_, Fallible.exec_bind_error _ he _⟩

theorem disconnectSound_iff (hsql : ∀ q, env (.sql q) = none) (sessionId : Int) :
    DisconnectSound env w sessionId ↔ ∀ s ∈ w.db.tables.session, s.id = sessionId →
      validateMac s.macAddress = .ok () → ¬ RemovalFails env w s := by
  apply forall₃_congr
  intro s hs hid
  subst hid
  obtain ⟨hv, hi⟩ := exec_disconnect hsql hs
  by_cases hm : validateMac s.macAddress = .ok ()
  · obtain ⟨w', he, hset, htab⟩ := hv hm
    rw [he, hset]
    simp only [hm, forall_const]
    constructor
    · rintro ⟨h1, -⟩ ⟨hr, hmem⟩
      rw [hr] at h1
      exact h1 hmem
    · intro h
      refine ⟨?_, fun hf => absurd hf h⟩
      cases hr : removable env s with
      | true => exact TimedSet.not_mem_of_none (TimedSet.erase_self ..) _
      | false => exact fun hmem => h ⟨hr, hmem⟩
  · obtain ⟨e, he⟩ := hi hm
    rw [he]
    refine ⟨fun _ h => absurd h hm, fun _ => ⟨fun h => ?_, fun _ ha => ⟨hs, ha⟩⟩⟩
    cases h

theorem cleanupSound_iff (hsql : ∀ q, env (.sql q) = none) :
    CleanupSound env grace w ↔ ∀ s ∈ w.db.tables.overdue grace w.now, ¬ RemovalFails env w s := by
  have c := run_cleanupPass hsql grace w
  unfold CleanupSound
  generalize ((cleanupPass grace).run (failing env) w).2 = w' at c
  constructor
  · intro h s hs hf
    have ha := (Tables.mem_overdue.1 hs).1
    exact ((c.active s).1 ((h s ha.1).2 hf ha.2)).2 hs
  · intro h s hs
    refine ⟨fun hne hm => ?_, fun hf ha => (c.active s).2 ⟨⟨hs, ha⟩, fun hov => h s hov hf⟩⟩
    rw [c.tables] at hm
    have hov := Tables.mem_of_expired_endSessions w.db.schema (fun g hg => (Tables.mem_overdue.1 hg).1.1) hs hne hm
    cases hr : removable env s with
    | true =>
      rw [c.set]
      exact TimedSet.not_mem_of_none
        (TimedSet.eraseAll_of_mem _ (List.mem_map.2 ⟨s, List.mem_filter.2 ⟨hov, hr⟩, rfl⟩)) _
    | false => exact fun hmem => h s hov ⟨hr, c.mem_of_mem (c.now ▸ hmem)⟩

/-- Disconnecting and the pass guarantee that an ended session is out of the firewall exactly when no deletion
they attempt fails on a pair that is in the set. -/
theorem removal_sound_iff (hsql : ∀ q, env (.sql q) = none) (sessionId grace : Int) (w : World) :
    (DisconnectSound env w sessionId ↔ ∀ s ∈ w.db.tables.session, s.id = sessionId →
      validateMac s.macAddress = .ok () → ¬ RemovalFails env w s) ∧
    (CleanupSound env grace w ↔ ∀ s, w.Active s → s.remainingAt w.now ≤ -grace →
      validateMac s.macAddress = .ok () → ¬ RemovalFails env w s) := by
  refine ⟨disconnectSound_iff hsql sessionId, (cleanupSound_iff hsql).trans (forall_congr' fun s => ?_)⟩
  rw [Tables.mem_overdue, SessionRow.endedBy_iff]
  exact ⟨fun h ha hr hm => h ⟨ha, hr, hm⟩, fun h hs => h hs.1 hs.2.1 hs.2.2⟩

/-- Every `nft` command fails. -/
def nftDown : Op → Option Err
  | .nft _ => some (.anyhow "failed to run nft command")
  | _ => none

theorem removal_sound_overtime : (∀ q, nftDown (.sql q) = none) ∧
    (DisconnectSound nftDown .overtime 1 ↔ ∀ s ∈ World.overtime.db.tables.session, s.id = 1 →
      validateMac s.macAddress = .ok () → ¬ RemovalFails nftDown .overtime s) ∧
    (CleanupSound nftDown 0 .overtime ↔ ∀ s, World.overtime.Active s → s.remainingAt World.overtime.now ≤ -0 →
      validateMac s.macAddress = .ok () → ¬ RemovalFails nftDown .overtime s) :=
  ⟨fun _ => rfl, removal_sound_iff (fun _ => rfl) 1 0 .overtime⟩

/-- The first customer in the last half second of the session. -/
def World.lastMoment : World := { World.firstSale with now := World.firstSale.now + 3599500000000 }

/-- With `nft` failing, disconnecting the first customer answers `Ok` and a pass without a grace period ends the
session in its last moment, and both leave the pair admitted. -/
theorem removal_fails_silently : (∀ q, nftDown (.sql q) = none) ∧
    RemovalFails nftDown .firstSale firstSession ∧ ¬ DisconnectSound nftDown .firstSale 1 ∧
    RemovalFails nftDown .lastMoment firstSession ∧ ¬ CleanupSound nftDown 0 .lastMoment := by
  refine ⟨fun _ => rfl, ⟨rfl, by decide⟩, fun h => ?_, ⟨rfl, by decide⟩, fun h => ?_⟩
  · exact (h firstSession (by decide) rfl).1 (by decide) (by decide)
  · exact (h firstSession (by decide)).1 (by decide) (by decide) (by decide)

end Didicafe
