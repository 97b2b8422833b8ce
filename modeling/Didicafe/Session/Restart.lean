/-
The session restore at startup. It keeps a session when its remaining seconds exceed the grace period,
where the ticker keeps it until the grace period has passed, so a restart ends sessions that still
have up to the grace period left, and with a negative grace period it ends none.
-/
import Didicafe.Model.Config
import Didicafe.Session.Passes

namespace Didicafe

open Effect

variable {w w' : World} {grace : Int}

/-- What the restore is to leave: sessions with a second or more left active, with their token as it was and
their pair admitted for the seconds left; sessions whose expiry has come expired with their token. -/
structure RestartKeeps (w w' : World) : Prop where
  kept : ∀ s e, w.Active s → s.expiry = some e → w.now + nanosPerSec ≤ e → w'.Active s ∧
    (∀ r ∈ w.db.tables.token, r.id = s.tokenId → r ∈ w'.db.tables.token) ∧
    w'.set s.pair = some (w.now + (e - w.now) / nanosPerSec * nanosPerSec)
  ended : ∀ s e, w.Active s → s.expiry = some e → e ≤ w.now →
    { s with status := .expired } ∈ w'.db.tables.session ∧
    ∀ r ∈ w'.db.tables.token, r.id = s.tokenId → r.status = .expired

theorem remainingAt_of_second_left {s : SessionRow} {e now : Int} (he : s.expiry = some e) (h : now + nanosPerSec ≤ e) :
    s.remainingAt now = (e - now) / nanosPerSec ∧ 1 ≤ (e - now) / nanosPerSec := by
  rw [SessionRow.remainingAt_of_expiry he, Int.tdiv_eq_ediv_of_nonneg (by unfold nanosPerSec at h; omega)]
  unfold nanosPerSec at *
  omega

namespace Restored

theorem active (h : Restored grace w w') (s : SessionRow) :
    w'.Active s ↔ w.Active s ∧ s ∉ w.db.tables.lapsed grace w.now := by
  show w'.db.tables.Active s ↔ _
  rw [h.tables]
  exact Tables.active_endSessions_of_active w.db.schema (fun g hg => (Tables.mem_lapsed.1 hg).1) s

/-- A session that is kept is admitted for its remaining seconds. -/
theorem set_of_kept (h : Restored grace w w') (hu : w.db.tables.OnePerMac) {s : SessionRow} (hs : w.Active s)
    (hr : grace < s.remainingAt w.now) (hv : validateMac s.macAddress = .ok ()) :
    w'.set s.pair = some (w.now + s.remainingAt w.now * nanosPerSec) := by
  have hc := asU64_of_nonneg (s.remainingAt_nonneg w.now)
  rw [h.set, ← hc]
  refine TimedSet.insertAll_of_mem _ (List.mem_map.2 ⟨s, List.mem_filter.2 ⟨hs.1, ?_⟩, rfl⟩) fun e' he' => ?_
  · simp [hs.2, hr, isValidMac_iff.2 hv]
  · obtain ⟨k, hk, he⟩ := List.mem_map.1 he'
    obtain ⟨hk, hp⟩ := List.mem_filter.1 hk
    have hact : w.Active k := ⟨hk, (Bool.and_eq_true _ _ ▸ hp).1⟩
    have hmac : k.macAddress = s.macAddress := congrArg (fun x => x.1.1) he
    rw [hu.eq hact hs hmac] at he
    exact (congrArg Prod.snd he).symm

/-- The restore keeps what it is to keep when it finds lapsed only sessions in their last second or over, and all that
are over. -/
theorem keeps (h : Restored grace w w') (hmac : w.db.tables.OnePerMac) (htok : w.db.tables.OnePerToken)
    (hv : ∀ s, w.Active s → validateMac s.macAddress = .ok ())
    (hlong : ∀ s e, w.Active s → s.expiry = some e → w.now + nanosPerSec ≤ e → grace < (e - w.now) / nanosPerSec)
    (hover : 0 ≤ grace ∨ ∀ s e, w.Active s → s.expiry = some e → w.now < e) : RestartKeeps w w' := by
  constructor
  case kept =>
    intro s e hs he hle
    obtain ⟨hrem, -⟩ := remainingAt_of_second_left he hle
    have hlt := hlong s e hs he hle
    have hm : s ∉ w.db.tables.lapsed grace w.now := fun hm => by have := (Tables.mem_lapsed.1 hm).2; omega
    refine ⟨(h.active s).2 ⟨hs, hm⟩, fun r hr hid => ?_, ?_⟩
    · rw [h.tables]
      exact Tables.mem_token_endSessions htok (fun g hg => (Tables.mem_lapsed.1 hg).1) hs hm hr hid
    · rw [h.set_of_kept hmac hs (by omega) (hv s hs), hrem]
  case ended =>
    intro s e hs he hle
    have hrem := (SessionRow.remainingAt_bounds he w.now).2 hle
    have hg : 0 ≤ grace := hover.resolve_right fun hx => by have := hx s e hs he; omega
    have hm : s ∈ w.db.tables.lapsed grace w.now := Tables.mem_lapsed.2 ⟨hs, by omega⟩
    rw [h.tables]
    exact ⟨Tables.mem_session_endSessions hs.1 hm, fun r hr hid => Tables.status_of_mem_endSessions hr hm hid⟩

/-- A session that the restore ends had at most the grace period left. -/
theorem remaining_of_ended (h : Restored grace w w') {s : SessionRow} (hs : w.Active s)
    (hm : { s with status := .expired } ∈ w'.db.tables.session) : s.remainingAt w.now ≤ grace := by
  rw [h.tables] at hm
  have hne : s.status ≠ .expired := by
    intro hx
    have := hs.2
    simp [SessionRow.isActive, hx] at this
  have hgone := Tables.mem_of_expired_endSessions w.db.schema (fun g hg => (Tables.mem_lapsed.1 hg).1.1) hs.1 hne hm
  exact (Tables.mem_lapsed.1 hgone).2

theorem keeps_iff (h : Restored grace w w') (hmac : w.db.tables.OnePerMac) (htok : w.db.tables.OnePerToken)
    (hv : ∀ s, w.Active s → validateMac s.macAddress = .ok ()) : RestartKeeps w w' ↔
      (∀ s e, w.Active s → s.expiry = some e → w.now + nanosPerSec ≤ e → grace < (e - w.now) / nanosPerSec) ∧
      (0 ≤ grace ∨ ∀ s e, w.Active s → s.expiry = some e → w.now < e) := by
  constructor
  · intro hk
    constructor
    · intro s e hs he hle
      obtain ⟨hrem, -⟩ := remainingAt_of_second_left he hle
      by_contra hlt
      exact ((h.active s).1 (hk.kept s e hs he hle).1).2 (Tables.mem_lapsed.2 ⟨hs, by omega⟩)
    · by_contra hn
      obtain ⟨hg, hn⟩ := not_or.1 hn
      apply hn
      intro s e hs he
      by_contra hle
      have := h.remaining_of_ended hs (hk.ended s e hs he (by omega)).1
      have := s.remainingAt_nonneg w.now
      omega
  · rintro ⟨hlong, hover⟩
    exact h.keeps hmac htok hv hlong hover

end Restored

/-- The restore of any configuration keeps what customers have paid for exactly when no session with a second
left has at most the grace period left, and no session is over while the grace period is negative. -/
theorem restore_keeps_iff (c : SessionConfig) (hmac : w.db.tables.OnePerMac) (htok : w.db.tables.OnePerToken)
    (hv : ∀ s, w.Active s → validateMac s.macAddress = .ok ()) :
    RestartKeeps w (Fallible.exec noFault (restoreSessions c.gracePeriodSeconds) w).2 ↔
      (∀ s e, w.Active s → s.expiry = some e → w.now + nanosPerSec ≤ e →
        c.gracePeriodSeconds < (e - w.now) / nanosPerSec) ∧
      (0 ≤ c.gracePeriodSeconds ∨ ∀ s e, w.Active s → s.expiry = some e → w.now < e) := by
  obtain ⟨w', he, hr⟩ := exec_restoreSessions c.gracePeriodSeconds w
  rw [he]
  exact hr.keeps_iff hmac htok hv

/-- The session settings the program is shipped with. -/
def shippedSessionConfig : SessionConfig where
  cleanupIntervalSeconds := 30
  gracePeriodSeconds := 10
  retentionDays := defaultSessionRetentionDays
  auditRetentionDays := defaultAuditRetentionDays

theorem restore_keeps_firstSale : RestartKeeps .firstSale
    (Fallible.exec noFault (restoreSessions shippedSessionConfig.gracePeriodSeconds) .firstSale).2 := by
  refine (restore_keeps_iff shippedSessionConfig (by decide) (by decide) fun s hs => ?_).2
    ⟨fun s e hs he _ => ?_, .inl (by decide)⟩
  · rw [active_firstSale.1 hs]; decide
  · rw [active_firstSale.1 hs, expiry_firstSession] at he
    subst he; decide

/-- A restart five seconds before the end of the first session ends it. -/
theorem restore_ends_firstSale : shippedSessionConfig.validate = .ok () ∧
    (World.firstSale.later 3595).db.tables.OnePerMac ∧ (World.firstSale.later 3595).db.tables.OnePerToken ∧
    (∀ s, (World.firstSale.later 3595).Active s → s.expiry.isSome ∧ validateMac s.macAddress = .ok ()) ∧
    ¬ RestartKeeps (World.firstSale.later 3595) (Fallible.exec noFault
      (restoreSessions shippedSessionConfig.gracePeriodSeconds) (World.firstSale.later 3595)).2 := by
  refine ⟨by decide, by decide, by decide, fun s hs => ?_, fun h => ?_⟩
  · rw [active_firstSale.1 hs]; decide
  · exact absurd (h.kept firstSession _ (by decide) (expiry_firstSession.2 rfl) (by decide)).1 (by decide)

end Didicafe
