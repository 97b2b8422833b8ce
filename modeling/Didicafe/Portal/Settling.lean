/-
Visits, admin disconnects and cleanup passes without a grace period. A token is expired only together with an
active session of its own, so a session that is ended otherwise leaves its token active for good; as long as no
call does that, a cleanup pass leaves no active token past its expiry.
-/
import Didicafe.Portal.Visits

namespace Didicafe

open Effect Runs

variable {w w' : World}

inductive Deed where
  | visit (v : Visit)
  | disconnect (sessionId : Int)
  | cleanup

def Deed.step (w : World) : Deed → Option World
  | .visit v => v.step w
  | .disconnect sessionId => some (Fallible.exec noFault (Didicafe.disconnect sessionId) w).2
  | .cleanup => some ((cleanupPass 0).run noFault w).2

def counter : Machine World Deed := ⟨Unsold, Deed.step⟩

/-- No token is active past its expiry. -/
def NoneStuck (w : World) : Prop :=
  ∀ r ∈ w.db.tables.token, r.status = .active → ∀ e, r.expiry = some e → w.now < e

/-- The call ends no active session other than by a cleanup pass or in favour of another one of the same token: a
visit redeems or migrates on a device without a session of another token, and only ended sessions are
disconnected. -/
def EndsNoOther (w : World) : Deed → Prop
  | .visit (.auth code mac _) => ∀ k, ((∃ e, Redeems w code k e) ∨ ∃ q, Migrates w code k q) →
    ∀ s, w.Active s → s.macAddress = mac → s.tokenId = k.id
  | .disconnect sessionId => ∀ s, w.Active s → s.id ≠ sessionId
  | .visit (.elapse _) | .cleanup => True

/-! ## Active tokens and active sessions go together -/

/-- Every active token has an active session, and every active session has a valid MAC and an active token with the
same expiry. -/
structure Paired (w : World) : Prop where
  session : ∀ r ∈ w.db.tables.token, r.status = .active → ∃ s, w.Active s ∧ s.tokenId = r.id
  token : ∀ s, w.Active s → ∃ r ∈ w.db.tables.token, r.id = s.tokenId ∧ r.status = .active ∧
    r.expiresAt = some s.expiresAt
  macValid : ∀ s, w.Active s → validateMac s.macAddress = .ok ()

namespace Paired

theorem backed (h : Paired w) : Backed w := ⟨fun r hr hst _ _ _ => h.session r hr hst, h.token⟩

theorem macValid_of_opened (h : Paired w) {old : Option SessionRow} {new : SessionRow} (o : Opened w w' old new)
    (s : SessionRow) (hs : w'.Active s) : validateMac s.macAddress = .ok () := by
  rcases (o.active s).1 hs with ⟨hs, -⟩ | rfl
  · exact h.macValid s hs
  · exact o.macValid

theorem visit {code mac ip : String} (h : Paired w) (hm : validateMac mac = .ok ())
    (hok : EndsNoOther w (.visit (.auth code mac ip))) : Paired ((portalAuth code mac ip).run noFault w).2 := by
  generalize hw : ((portalAuth code mac ip).run noFault w).2 = w'
  have hv := run_portalAuth hm w code ip
  rw [hw] at hv
  rcases hv with ⟨k, e, hk, r⟩ | ⟨k, q, hk, m⟩ | ⟨-, -, rfl⟩
  · have hsp := hok k (.inl ⟨e, hk⟩)
    have hb := h.backed.redeemed hk hm r fun s hs hmac => .inl (hsp s hs hmac)
    obtain ⟨hmem, -⟩ := Tables.tokenByCode_some hk.token
    obtain ⟨d, hd, he⟩ := hk.expiry
    have hid := Tables.createSession_of_token w.now mac ip (formatTimestamp (e / nanosPerSec)) ⟨_, hmem, rfl⟩
    obtain ⟨new, o, hp, ht, -⟩ := r.opened hd he hm hid
    obtain ⟨rfl, rfl⟩ := Prod.mk.inj hp
    refine ⟨fun r' hr' hst => ?_, hb.token, h.macValid_of_opened o⟩
    have htok : w'.db.tables.token =
        (w.db.tables.redeemToken w.now k.id (formatTimestamp (e / nanosPerSec))).token := by
      rw [r.tables]
      exact congrArg (Table.updateWhere _ _) Tables.token_createSession
    rw [htok] at hr'
    rcases Table.mem_updateWhere.1 hr' with ⟨a, -, hak, rfl⟩ | ⟨hr', -⟩
    · exact ⟨new, (o.active new).2 (.inr rfl), ht.trans (eq_of_beq hak).symm⟩
    · obtain ⟨s, hs, hid⟩ := h.session r' hr' hst
      exact o.session_of ht (fun _ hq => nomatch hq) hs hid (hsp s hs)
  · have hsp := hok k (.inr ⟨q, hk⟩)
    have hb := h.backed.migrated hk hm m fun s hs hmac => .inl (hsp s hs hmac)
    obtain ⟨-, hqid⟩ := Tables.sessionByToken_some hk.session
    obtain ⟨new, o, hp, ht, -⟩ := m.opened hk.session hm
    obtain ⟨rfl, rfl⟩ := Prod.mk.inj hp
    refine ⟨fun r' hr' hst => ?_, hb.token, h.macValid_of_opened o⟩
    have htok : w'.db.tables.token = w.db.tables.token := by rw [m.tables, Tables.token_createSession]; rfl
    rw [htok] at hr'
    obtain ⟨s, hs, hid⟩ := h.session r' hr' hst
    exact o.session_of ht (fun q' hq' => by cases hq'; exact hqid) hs hid (hsp s hs)
  · exact h

theorem disconnect {sessionId : Int} (h : Paired w) (hok : EndsNoOther w (.disconnect sessionId)) :
    Paired (Fallible.exec noFault (Didicafe.disconnect sessionId) w).2 := by
  cases hx : Fallible.exec noFault (Didicafe.disconnect sessionId) w with
  | mk r w' =>
    cases r with
    | error e => rw [exec_disconnect_error hx]; exact h
    | ok u =>
      obtain ⟨r, hr, rfl, -, -, htab⟩ := exec_disconnect_ok hx
      have hact : ∀ s, w'.Active s ↔ w.Active s := by
        intro s
        show w'.db.tables.Active s ↔ _
        rw [htab]
        show (w.db.tables.setSessionStatus _ _).Active s ↔ _
        rw [Tables.active_endSession (by decide)]
        exact and_iff_left_of_imp (hok s)
      have htok : w'.db.tables.token = w.db.tables.token := by rw [htab]; rfl
      constructor
      case session =>
        intro r hr hst
        rw [htok] at hr
        obtain ⟨s, hs, hid⟩ := h.session r hr hst
        exact ⟨s, (hact s).2 hs, hid⟩
      case token =>
        intro s hs
        rw [htok]
        exact h.token s ((hact s).1 hs)
      case macValid => exact fun s hs => h.macValid s ((hact s).1 hs)

/-- The sessions of one token are overdue together, as they have its expiry. -/
theorem mem_overdue (h : Paired w) {s g : SessionRow} {grace : Int} (hs : w.Active s)
    (hg : g ∈ w.db.tables.overdue grace w.now) (hid : g.tokenId = s.tokenId) : s ∈ w.db.tables.overdue grace w.now := by
  obtain ⟨hga, hge⟩ := Tables.mem_overdue.1 hg
  obtain ⟨r, hr, hrid, -, hre⟩ := h.token s hs
  obtain ⟨r', hr', hrid', -, hre'⟩ := h.token g hga
  rw [Table.eq_of_key w.db.schema.tokenId hr' hr ((hrid'.trans hid).trans hrid.symm), hre] at hre'
  have he : g.expiresAt = s.expiresAt := (Option.some.inj hre').symm
  refine Tables.mem_overdue.2 ⟨hs, SessionRow.endedBy_iff.2 ⟨?_, h.macValid s hs⟩⟩
  have := (SessionRow.endedBy_iff.1 hge).1
  unfold SessionRow.remainingAt at this ⊢
  rwa [← he]

theorem cleanup (h : Paired w) (hc : Cleaned (fun _ => none) 0 w w') : Paired w' := by
  have htok := congrArg Tables.token hc.tables
  rw [Tables.token_endSessions] at htok
  constructor
  case session =>
    intro r hr hst
    have hr' : r ∈ (w.db.tables.endSessions (w.db.tables.overdue 0 w.now)).token := by rwa [← hc.tables]
    rw [htok] at hr
    rcases Table.mem_updateWhere.1 hr with ⟨a, -, -, rfl⟩ | ⟨hr, -⟩
    · cases hst
    · obtain ⟨s, hs, hid⟩ := h.session r hr hst
      refine ⟨s, (hc.active s).2 ⟨hs, fun hm => ?_⟩, hid⟩
      have := Tables.status_of_mem_endSessions hr' hm hid.symm
      rw [hst] at this; cases this
  case token =>
    intro s hs
    obtain ⟨hs, hn⟩ := (hc.active s).1 hs
    obtain ⟨r, hr, hid, hst, he⟩ := h.token s hs
    refine ⟨r, ?_, hid, hst, he⟩
    rw [hc.tables]
    apply Tables.mem_token_endSessions_of_ne hr
    intro g hg hgr
    exact hn (h.mem_overdue hs hg (hgr.trans hid))
  case macValid => exact fun s hs => h.macValid s ((hc.active s).1 hs).1

/-- A cleanup pass leaves no active token past its expiry. -/
theorem noneStuck (h : Paired w) (hc : Cleaned (fun _ => none) 0 w w') : NoneStuck w' := by
  intro r hr hst e he
  have h' := h.cleanup hc
  obtain ⟨s, hs, hid⟩ := h'.session r hr hst
  have hse : s.expiry = some e := (h'.backed.expiry_of_token hs hr hid).trans he
  obtain ⟨hs, hn⟩ := (hc.active s).1 hs
  by_contra hle
  rw [hc.now] at hle
  apply hn
  refine Tables.mem_overdue.2 ⟨hs, SessionRow.endedBy_iff.2 ⟨?_, h.macValid s hs⟩⟩
  rw [(SessionRow.remainingAt_bounds hse w.now).2 (by omega)]
  decide

theorem step {d : Deed} (h : Paired w) (hok : EndsNoOther w d) (hs : counter.step w d = some w') : Paired w' := by
  cases d with
  | visit v =>
    cases v with
    | auth code mac ip =>
      have hs : (if isValidMac mac then some ((portalAuth code mac ip).run noFault w).2 else none) = some w' := hs
      split at hs
      · rename_i hm
        cases hs
        exact h.visit (isValidMac_iff.1 hm) hok
      · cases hs
    | elapse nanos => cases hs; exact ⟨h.session, h.token, h.macValid⟩
  | disconnect sessionId => cases hs; exact h.disconnect hok
  | cleanup => cases hs; exact h.cleanup (run_cleanupPass (fun _ => rfl) 0 w)

end Paired

/-! ## Runs -/

/-- In every run whose calls end no active session other than by a cleanup pass or in favour of another one of the
same token, a cleanup pass leaves no active token past its expiry. -/
theorem noneStuck_of_endsNoOther (h : Reach counter EndsNoOther w) : NoneStuck ((cleanupPass 0).run noFault w).2 := by
  have paired : Paired w := by
    apply h.invariant (I := Paired)
    · intro w h0
      have h0 : Unsold w := h0
      exact ⟨fun r hr hst => absurd hst (h0.2 r hr), fun s hs => absurd hs (h0.1 s), fun s hs => absurd hs (h0.1 s)⟩
    · exact fun _ _ _ hi hok hs => hi.step hok hs
  exact paired.noneStuck (run_cleanupPass (fun _ => rfl) 0 w)

/-- Two hours after the first visit, which bought one. -/
def ranOut : World := (counter.trace .opening [.visit .first, .visit (.elapse 7200000000000)]).getD .opening

/-- The token is active past its expiry until the pass runs. -/
theorem noneStuck_ranOut : ¬ NoneStuck ranOut ∧ NoneStuck ((cleanupPass 0).run noFault ranOut).2 := by
  have stuck : ∃ r ∈ ranOut.db.tables.token, r.status = .active ∧ r.expiry = some (1704099600 * nanosPerSec) := by
    decide
  have hok : EndsNoOther .opening (.visit .first) := fun _ _ _ hs => by cases hs.1
  have later (w : World) : EndsNoOther w (.visit (.elapse 7200000000000)) := trivial
  refine ⟨fun h => ?_, noneStuck_of_endsNoOther (.step (.step (.start unsold_opening) hok rfl) (later _) rfl)⟩
  obtain ⟨r, hr, hst, he⟩ := stuck
  exact absurd (h r hr hst _ he) (by decide)

/-- The admin disconnects the first customer, and two hours pass. -/
def disconnected : List Deed := [.visit .first, .disconnect 1, .visit (.elapse 7200000000000)]

/-- The token is then active for good. -/
theorem disconnected_stuck : ¬ ∀ w, Reach counter Free w → NoneStuck ((cleanupPass 0).run noFault w).2 := by
  refine Machine.refute disconnected unsold_opening (by decide) fun h => ?_
  have stuck : ∃ r ∈ ((cleanupPass 0).run noFault
      ((counter.trace .opening disconnected).get (by decide))).2.db.tables.token, r.status = .active ∧
      r.expiry = some (1704099600 * nanosPerSec) := by decide
  obtain ⟨r, hr, hst, he⟩ := stuck
  exact absurd (h r hr hst _ he) (by decide)

end Didicafe
