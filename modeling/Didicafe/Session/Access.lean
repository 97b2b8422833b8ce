/-
The firewall against the session table, over all runs of the site: every admitted pair belongs to an
active session, every session in time has its pair admitted, and the captive portal API tells a device
that it is online only while its session's pair is admitted.

`Database::create_session` ends the rows of a MAC without deauthorizing their pairs, and `disconnect`
deauthorizes the pair of a row that has ended long ago; the runs below are those that do neither.
-/
import Didicafe.Session.Site

namespace Didicafe

open Effect Runs

variable {w w' : World} {old : Option SessionRow} {new : SessionRow}

/-! ## Admitted pairs belong to active sessions -/

/-- Every pair in the set is that of an active session. -/
def Accounted (w : World) : Prop := ∀ p, w.set.Mem w.now p → ∃ s, w.Active s ∧ s.pair = p

/-- The call ends no row of the requesting MAC with another IP whose pair is still admitted; the row a
migration moves is deauthorized and need not be considered. -/
def SameAddress (w : World) : Call → Prop
  | .create _ _ mac ip => ∀ s, w.Active s → s.macAddress = mac → s.ipAddress = ip ∨ ¬ w.set.Mem w.now s.pair
  | .migrate tokenId mac ip => ∀ s, w.Active s → s.macAddress = mac →
    s.ipAddress = ip ∨ ¬ w.set.Mem w.now s.pair ∨ ∃ k, w.db.tables.sessionByToken tokenId = some k ∧ k.toSessionRow = s
  | _ => True

theorem Opened.accounted (o : Opened w w' old new) (d : Devices w) (h : Accounted w)
    (hsame : ∀ s, w.Active s → s.macAddress = new.macAddress → some s ≠ old →
      s.ipAddress = new.ipAddress ∨ ¬ w.set.Mem w.now s.pair) : Accounted w' := by
  intro p hm
  by_cases hp : p = new.pair
  · exact ⟨new, (o.active new).2 (.inr rfl), hp.symm⟩
  -- the pair of the session moved is erased, since its MAC is valid
  have hold : ∀ k, old = some k → p ≠ k.pair := by
    rintro k rfl rfl
    obtain ⟨e, he, -⟩ := o.set
    refine TimedSet.not_mem_of_none ?_ _ hm
    rw [he, TimedSet.insert_of_ne _ hp]
    exact (congrFun (AuthSet.release_valid _ (d.macValid k (o.oldActive k rfl))) _).trans (TimedSet.erase_self ..)
  obtain ⟨e, he, hlt⟩ := hm
  rw [o.set_of_ne hp hold] at he
  rw [o.now] at hlt
  obtain ⟨s, hs, rfl⟩ := h p ⟨e, he, hlt⟩
  have hne : some s ≠ old := fun hs => hold s hs.symm rfl
  refine ⟨s, (o.active s).2 (.inl ⟨hs, hne, fun hmac => ?_⟩), rfl⟩
  rcases hsame s hs hmac hne with hip | hn
  · exact hp (Prod.ext hmac hip)
  · exact hn ⟨e, he, hlt⟩

theorem Accounted.step {c : Call} (d : Devices w) (h : Accounted w) (hok : SameAddress w c)
    (hs : site.step w c = some w') : Accounted w' := by
  cases c with
  | create tokenId minutes mac ip =>
    obtain ⟨new, o, hp⟩ := step_create hs
    obtain ⟨rfl, rfl⟩ := Prod.mk.inj hp
    exact o.accounted d h fun s hs hmac _ => hok s hs hmac
  | migrate tokenId mac ip =>
    obtain ⟨k, new, hk, o, hp⟩ := step_migrate hs
    obtain ⟨rfl, rfl⟩ := Prod.mk.inj hp
    apply o.accounted d h
    intro s hs hmac hne
    rcases hok s hs hmac with hip | hn | ⟨k', hk', he⟩
    · exact .inl hip
    · exact .inr hn
    · rw [hk] at hk'; cases hk'
      exact absurd (congrArg some he.symm) hne
  | disconnect sessionId =>
    obtain ⟨r, -, c⟩ := step_disconnect hs
    rintro p ⟨e, he, hlt⟩
    rw [c.set] at he
    rw [c.now] at hlt
    have hp : p ≠ r.pair := by rintro rfl; rw [TimedSet.erase_self] at he; cases he
    rw [TimedSet.erase_of_ne _ hp] at he
    obtain ⟨s, hs, rfl⟩ := h p ⟨e, he, hlt⟩
    exact ⟨s, (c.active s).2 ⟨hs, fun hsr => hp (congrArg _ hsr)⟩, rfl⟩
  | cleanup grace =>
    have c := step_cleanup hs
    intro p hm
    obtain ⟨s, hs, rfl⟩ := h p (c.mem_of_mem hm)
    refine ⟨s, (c.active s).2 ⟨hs, fun hov => ?_⟩, rfl⟩
    refine TimedSet.not_mem_of_none ?_ _ hm
    rw [c.set]
    exact TimedSet.eraseAll_of_mem _ (List.mem_map.2 ⟨s, List.mem_filter.2 ⟨hov, rfl⟩, rfl⟩)
  | elapse nanos =>
    cases hs
    rintro p ⟨e, he, hlt⟩
    have hlt : w.now + (nanos : Int) < e := hlt
    exact h p ⟨e, he, by omega⟩

/-- In every run whose calls end no row of the requesting MAC that is admitted with another IP, every pair in
the set is that of an active session. -/
theorem accounted_of_sameAddress {w : World} (h : Reach site SameAddress w) : Accounted w := by
  refine (h.invariant (I := fun w => Devices w ∧ Accounted w) (fun w h0 => ?_) fun w c w' hi hok hs => ?_).2
  · have h0 : Offline w := h0
    exact ⟨h0.devices, fun p hm => absurd hm (h0.2 p)⟩
  · exact ⟨hi.1.step hs, hi.2.step hi.1 hok hs⟩

theorem accounted_firstSale : Accounted .firstSale :=
  accounted_of_sameAddress (reach_firstSale fun s hs => absurd hs (offline_opening.1 s))

/-- The second customer comes with the MAC of the first and another IP. -/
def secondSale : List Call :=
  [.create 1 60 "02:00:00:00:00:01" "10.0.0.2", .create 2 60 "02:00:00:00:00:01" "10.0.0.3"]

/-- After the second sale the pair of the first customer is still admitted, and no active session has it. -/
theorem secondSale_not_accounted : ¬ ∀ w, Reach site Free w → Accounted w := by
  refine Machine.refute (M := site) secondSale offline_opening (by decide) fun h => ?_
  have none : ¬ ∃ s ∈ ((site.trace .opening secondSale).get (by decide)).db.tables.session,
      s.isActive = true ∧ s.pair = ("02:00:00:00:00:01", "10.0.0.2") := by decide
  obtain ⟨s, hs, hp⟩ := h ("02:00:00:00:00:01", "10.0.0.2") (by decide)
  exact none ⟨s, hs.1, hs.2, hp⟩

/-! ## Sessions in time are admitted -/

/-- Every active session that has not expired has its pair in the set, until at most a second before its
expiry. -/
def Covered (w : World) : Prop := ∀ s e, w.Active s → s.expiry = some e → w.now < e →
  ∃ x, w.set s.pair = some x ∧ e ≤ x + nanosPerSec

/-- `Covered`, with less than a second between the two expiries; this is what the calls keep. -/
def Granted (w : World) : Prop := ∀ s e, w.Active s → s.expiry = some e → w.now < e →
  ∃ x, w.set s.pair = some x ∧ e < x + nanosPerSec

theorem Granted.covered (h : Granted w) : Covered w := fun s e hs he hlt =>
  let ⟨x, hx, hle⟩ := h s e hs he hlt
  ⟨x, hx, Int.le_of_lt hle⟩

/-- The call does not disconnect an ended session whose pair is that of a session in time. -/
def EndsOwnPair (w : World) : Call → Prop
  | .disconnect sessionId => ∀ r ∈ w.db.tables.session, r.id = sessionId →
    r.isActive = true ∨ ¬ ∃ s e, w.Active s ∧ s.expiry = some e ∧ w.now < e ∧ s.pair = r.pair
  | _ => True

theorem Opened.granted (o : Opened w w' old new) (d : Devices w) (h : Granted w) : Granted w' := by
  intro s e hs he hlt
  rw [o.now] at hlt
  rcases (o.active s).1 hs with ⟨hs, hne, hmac⟩ | rfl
  · have hnew : s.pair ≠ new.pair := fun hp => hmac (congrArg Prod.fst hp)
    have hold : ∀ k, old = some k → s.pair ≠ k.pair := by
      rintro k rfl hp
      exact hne (congrArg some (d.onePerMac.eq hs (o.oldActive k rfl) (congrArg Prod.fst hp)))
    rw [o.set_of_ne hnew hold]
    exact h s e hs he hlt
  · obtain ⟨x, hx, hle⟩ := o.set
    exact ⟨x, by rw [hx, TimedSet.insert_self], hle e he⟩

theorem Granted.step {c : Call} (d : Devices w) (h : Granted w) (hok : EndsOwnPair w c)
    (hs : site.step w c = some w') : Granted w' := by
  cases c with
  | create =>
    obtain ⟨new, o, -⟩ := step_create hs
    exact o.granted d h
  | migrate =>
    obtain ⟨k, new, -, o, -⟩ := step_migrate hs
    exact o.granted d h
  | disconnect sessionId =>
    obtain ⟨r, hid, c⟩ := step_disconnect hs
    intro s e hs he hlt
    rw [c.now] at hlt
    obtain ⟨hs, hne⟩ := (c.active s).1 hs
    have hp : s.pair ≠ r.pair := fun hp => by
      rcases hok r c.row hid with hact | hn
      · exact hne (d.onePerMac.eq hs ⟨c.row, hact⟩ (congrArg Prod.fst hp))
      · exact hn ⟨s, e, hs, he, hlt, hp⟩
    rw [c.set, TimedSet.erase_of_ne _ hp]
    exact h s e hs he hlt
  | cleanup grace =>
    have c := step_cleanup hs
    intro s e hs he hlt
    rw [c.now] at hlt
    obtain ⟨hs, hn⟩ := (c.active s).1 hs
    rw [c.set_of_not_mem d.onePerMac hs hn]
    exact h s e hs he hlt
  | elapse nanos =>
    cases hs
    intro s e hs he hlt
    have hlt : w.now + (nanos : Int) < e := hlt
    exact h s e hs he (by omega)

theorem granted_of_reach {w : World} (h : Reach site EndsOwnPair w) : Granted w := by
  refine (h.invariant (I := fun w => Devices w ∧ Granted w) (fun w h0 => ?_) fun w c w' hi hok hs => ?_).2
  · have h0 : Offline w := h0
    exact ⟨h0.devices, fun s _ hs => absurd hs (h0.1 s)⟩
  · exact ⟨hi.1.step hs, hi.2.step hi.1 hok hs⟩

/-- In every run that does not disconnect an ended session whose pair has gone to a session in time, every
active session in time is admitted. -/
theorem covered_of_endsOwnPair {w : World} (h : Reach site EndsOwnPair w) : Covered w :=
  (granted_of_reach h).covered

theorem covered_firstSale : Covered .firstSale := covered_of_endsOwnPair (reach_firstSale trivial)

/-- The first customer reconnects, and the session closed by that is disconnected. -/
def reconnect : List Call :=
  [.first, .migrate 1 "02:00:00:00:00:01" "10.0.0.2", .disconnect 1]

/-- Disconnecting the closed session cuts off the customer's new one. -/
theorem reconnect_not_covered : ¬ ∀ w, Reach site Free w → Covered w := by
  refine Machine.refute (M := site) reconnect offline_opening (by decide) fun h => ?_
  obtain ⟨x, hx, -⟩ := h { firstSession with id := 2 } (1704099600 * nanosPerSec) (by decide)
    (expiry_firstSession.2 rfl) (by decide)
  cases hx

/-! ## The captive portal API -/

/-- The API tells a device that it is online only when the MAC has an active session with a second left. -/
theorem exec_captiveApi {config : PortalConfig} {arp : Option String} {r : CapportResponse}
    (h : Fallible.exec noFault (captiveApi config arp) w = (.ok r, w')) (hc : r.captive = false) :
    ∃ s, arp = some s.macAddress ∧ w.Active s ∧ 0 < s.remainingAt w.now := by
  unfold captiveApi at h
  cases hm : resolveClientMac arp with
  | none => rw [hm] at h; cases h; cases hc
  | some mac =>
    rw [hm] at h
    obtain ⟨q, w₁, hq, h⟩ := Fallible.exec_bind_inv _ h
    rw [exec_query w rfl rfl] at hq
    obtain ⟨hq, rfl⟩ := Prod.mk.inj hq
    cases hk : w.db.tables.sessionByMac w.now mac with
    | none => rw [hk] at hq; cases hq; cases h; cases hc
    | some k =>
      rw [hk] at hq; cases hq
      obtain ⟨hs, hmac, -⟩ := Tables.sessionByMac_some hk
      obtain ⟨rem, w₂, hrem, h⟩ := Fallible.exec_bind_inv _ h
      rw [exec_remainingSeconds] at hrem
      cases hrem
      refine ⟨k.toSessionRow, ?_, hs, ?_⟩
      · rw [hmac]; exact (Option.filter_eq_some_iff.1 hm).1
      · by_contra hn
        rw [if_neg hn] at h
        cases h; cases hc

/-- In every run that does not disconnect an ended session whose pair has gone to a session in time, a device
that is told it is online has an active session whose pair is in the set at that instant. -/
theorem online_of_endsOwnPair {w w' : World} (h : Reach site EndsOwnPair w) (config : PortalConfig)
    (arp : Option String) {r : CapportResponse} (hr : Fallible.exec noFault (captiveApi config arp) w = (.ok r, w'))
    (hc : r.captive = false) : ∃ s, arp = some s.macAddress ∧ w.Active s ∧ w.set.Mem w.now s.pair := by
  obtain ⟨s, hmac, hs, hrem⟩ := exec_captiveApi hr hc
  obtain ⟨e, he⟩ := SessionRow.expiry_of_remainingAt_pos hrem
  have hb := SessionRow.remainingAt_bounds he w.now
  have hlt : w.now < e := by
    by_contra hle
    have := hb.2 (by omega)
    omega
  obtain ⟨x, hx, hxe⟩ := granted_of_reach h s e hs he hlt
  refine ⟨s, hmac, hs, x, hx, ?_⟩
  have hle := (hb.1 hlt).1
  unfold nanosPerSec at *
  omega

/-- The portal of the shop. -/
def shopPortal : PortalConfig := ⟨"wifi.didicafe", 80⟩

theorem online_firstSale : ∃ s, some "02:00:00:00:00:01" = some s.macAddress ∧ World.firstSale.Active s ∧
    World.firstSale.set.Mem World.firstSale.now s.pair :=
  have hr : ∃ r, Fallible.exec noFault (captiveApi shopPortal (some "02:00:00:00:00:01")) .firstSale =
      (.ok r, .firstSale) ∧ r.captive = false := ⟨_, rfl, rfl⟩
  let ⟨_, hr, hc⟩ := hr
  online_of_endsOwnPair (reach_firstSale trivial) shopPortal _ hr hc

/-- The first customer's device is told that it is online also when it has got another IP since. -/
theorem online_with_other_ip : ¬ ∀ w, Reach site Free w → ∀ config mac ip r w',
    Fallible.exec noFault (captiveApi config (some mac)) w = (.ok r, w') → r.captive = false →
    w.set.Mem w.now (mac, ip) := fun h =>
  absurd (h .firstSale (reach_firstSale trivial) shopPortal "02:00:00:00:00:01" "10.0.0.9" _ .firstSale rfl rfl)
    (by decide)

end Didicafe
