/-
What a complete call of each session service does when no command and no statement fails.
-/
import Didicafe.Model.Handlers
import Didicafe.Store.Rows

namespace Didicafe

open Effect

variable {w w' : World}

/-- A session row of the world's database with status `active`. -/
abbrev World.Active (w : World) (s : SessionRow) : Prop := w.db.tables.Active s

/-- The set after deauthorizing a session's pair; nothing happens when its MAC is not valid. -/
def AuthSet.release (set : AuthSet) (s : SessionRow) : AuthSet :=
  if validateMac s.macAddress = .ok () then set.erase s.pair else set

theorem AuthSet.release_of_ne (set : AuthSet) {s : SessionRow} {p : String × String} (h : p ≠ s.pair) :
    set.release s p = set p := by
  unfold release
  split
  · exact TimedSet.erase_of_ne _ h
  · rfl

theorem AuthSet.release_valid (set : AuthSet) {s : SessionRow} (h : validateMac s.macAddress = .ok ()) :
    set.release s = set.erase s.pair := if_pos h

theorem exec_attempt_deauthorizeClient (w : World) (s : SessionRow) :
    ∃ r, Fallible.exec noFault (deauthorizeClient s.macAddress s.ipAddress).attempt w =
      (.ok r, { w with set := AuthSet.release w.set s }) := by
  rw [exec_attempt]
  unfold AuthSet.release
  by_cases hm : validateMac s.macAddress = .ok ()
  · rw [exec_deauthorizeClient _ w _ hm, if_pos rfl, if_pos hm]; exact ⟨_, rfl⟩
  · obtain ⟨e, he⟩ := exec_deauthorizeClient_invalid (fun _ => none) w s.ipAddress hm
    rw [he, if_neg hm]; exact ⟨_, rfl⟩

/-! ## Redeeming -/

/-- What a redemption leaves: the firewall admits the pair, the session is inserted and the token
marked, the last two with the expiry `e`. -/
structure Redeemed (w w' : World) (tokenId minutes : Int) (mac ip : String) (e : Int) : Prop where
  now : w'.now = w.now
  set : w'.set = w.set.insert (mac, ip) (w.now + asU64 (minutes * 60) * nanosPerSec)
  tables : w'.db.tables =
    (w.db.tables.createSession w.now tokenId mac ip (formatTimestamp (e / nanosPerSec))).2.redeemToken w.now
      tokenId (formatTimestamp (e / nanosPerSec))

theorem exec_createSession_ok {tokenId minutes id : Int} {mac ip : String}
    (h : Fallible.exec noFault (createSession tokenId minutes mac ip) w = (.ok id, w')) :
    ∃ d e, durationMinutes minutes = .ok d ∧ addDuration w.now d = .ok e ∧ validateMac mac = .ok () ∧
      (w.db.tables.createSession w.now tokenId mac ip (formatTimestamp (e / nanosPerSec))).1 = .ok id ∧
      Redeemed w w' tokenId minutes mac ip e := by
  unfold createSession at h
  obtain ⟨_, _, hnow, h⟩ := Fallible.exec_bind_inv _ h
  cases hnow
  obtain ⟨d, _, hd, h⟩ := Fallible.exec_bind_inv _ h
  rw [exec_ofExcept] at hd
  obtain ⟨hmin, rfl⟩ := Prod.mk.inj hd
  obtain ⟨e, _, he, h⟩ := Fallible.exec_bind_inv _ h
  rw [exec_ofExcept] at he
  obtain ⟨hadd, rfl⟩ := Prod.mk.inj he
  obtain ⟨_, w₁, ha, h⟩ := Fallible.exec_bind_inv _ h
  obtain ⟨hm, rfl⟩ := exec_authorizeClient_ok w ip ha
  obtain ⟨id', _, hs, h⟩ := Fallible.exec_bind_inv _ h
  rw [exec_sql_of_none _ rfl] at hs
  obtain ⟨hid, rfl⟩ := Prod.mk.inj hs
  obtain ⟨_, _, hr, h⟩ := Fallible.exec_bind_inv _ h
  rw [exec_sql_of_none _ rfl] at hr
  obtain ⟨-, rfl⟩ := Prod.mk.inj hr
  rw [Fallible.exec_pure] at h
  obtain ⟨hid', rfl⟩ := Prod.mk.inj h
  cases hid'
  exact ⟨d, e, hmin, hadd, hm, hid, rfl, rfl, rfl⟩

/-- A redemption goes through when its duration can be added to the clock, the MAC is valid and the token
exists. -/
theorem exec_createSession {tokenId minutes d e : Int} {mac ip : String} (hd : durationMinutes minutes = .ok d)
    (he : addDuration w.now d = .ok e) (hm : validateMac mac = .ok ()) (ht : ∃ r ∈ w.db.tables.token, r.id = tokenId) :
    ∃ id w', Fallible.exec noFault (createSession tokenId minutes mac ip) w = (.ok id, w') ∧
      Redeemed w w' tokenId minutes mac ip e := by
  have hid := Tables.createSession_of_token w.now mac ip (formatTimestamp (e / nanosPerSec)) ht
  unfold createSession
  rw [Fallible.exec_bind_ok _ (exec_utcNow ..), hd, Fallible.exec_bind_ok _ (exec_ofExcept ..), he,
    Fallible.exec_bind_ok _ (exec_ofExcept ..), Fallible.exec_bind_ok _ (exec_authorizeClient _ _ _ hm _ rfl),
    Fallible.exec_bind, exec_sql_of_none _ rfl]
  simp only [Sql.run, hid]
  rw [Fallible.exec_bind_ok _ (exec_sql_of_none _ rfl), Fallible.exec_pure]
  exact ⟨_, _, rfl, rfl, rfl, rfl⟩

theorem exec_createSession_overflow {env : Op → Option Err} (tokenId : Int) {minutes : Int} (mac ip : String)
    (h : ¬ ∃ d e, durationMinutes minutes = .ok d ∧ addDuration w.now d = .ok e) :
    ∃ err, Fallible.exec (failing env) (createSession tokenId minutes mac ip) w = (.error err, w) := by
  unfold createSession
  rw [Fallible.exec_bind_ok _ (exec_utcNow ..)]
  cases hd : durationMinutes minutes with
  | error err => exact ⟨err, Fallible.exec_bind_error _ (exec_ofExcept ..) _⟩
  | ok d =>
    rw [Fallible.exec_bind_ok _ (exec_ofExcept ..)]
    cases he : addDuration w.now d with
    | error err => exact ⟨err, Fallible.exec_bind_error _ (exec_ofExcept ..) _⟩
    | ok e => exact absurd ⟨d, e, hd, he⟩ h

/-- The shop at eight in the morning, and after its first customer has redeemed code `AAAA`. -/
def World.opening : World := ⟨1704096000 * nanosPerSec, shop, TimedSet.empty⟩

def World.firstSale : World := (Fallible.exec noFault (createSession 1 60 "02:00:00:00:00:01" "10.0.0.2") .opening).2

/-- The session of the first customer. -/
def firstSession : SessionRow where
  id := 1
  tokenId := 1
  macAddress := "02:00:00:00:00:01"
  ipAddress := "10.0.0.2"
  startedAt := "2024-01-01 08:00:00"
  expiresAt := "2024-01-01 09:00:00"
  status := .active

theorem active_firstSale {s : SessionRow} : World.firstSale.Active s ↔ s = firstSession := by
  have h : World.firstSale.db.tables.session = [firstSession] := by decide
  show s ∈ World.firstSale.db.tables.session ∧ _ ↔ _
  rw [h, List.mem_singleton]
  exact ⟨And.left, fun hs => ⟨hs, hs ▸ rfl⟩⟩

theorem expiry_firstSession {e : Int} : firstSession.expiry = some e ↔ e = 1704099600 * nanosPerSec := by
  have h : firstSession.expiry = some (1704099600 * nanosPerSec) := by decide
  rw [h, Option.some_inj, eq_comm]

/-- The world `n` seconds later. -/
def World.later (w : World) (n : Int) : World := { w with now := w.now + n * nanosPerSec }

/-! ## Migrating -/

/-- What a migration of session `k` leaves: its pair is released and its row closed, and the new pair
gets a session with the same expiry and the firewall's admission for the seconds left. -/
structure Migrated (w w' : World) (k : SessionRow) (tokenId : Int) (mac ip : String) : Prop where
  now : w'.now = w.now
  set : w'.set = (AuthSet.release w.set k).insert (mac, ip) (w.now + asU64 (k.remainingAt w.now) * nanosPerSec)
  tables : w'.db.tables =
    ((w.db.tables.disconnectSession k.id).createSession w.now tokenId mac ip k.expiresAt).2

theorem token_exists {k : Session} {tokenId : Int} (hk : w.db.tables.sessionByToken tokenId = some k) :
    ∃ r ∈ (w.db.tables.disconnectSession k.id).token, r.id = tokenId := by
  obtain ⟨ha, rfl⟩ := Tables.sessionByToken_some hk
  exact w.db.schema.sessionToken _ ha.1

@[simp] theorem exec_remainingSeconds (env : Op → Option Err) (s : Session) :
    Fallible.exec (failing env) (liftM s.remainingSeconds : App Int) w = (.ok (s.remainingAt w.now), w) := rfl

/-- A migration succeeds when the token has a session with a second left and the new MAC is valid. -/
theorem exec_migrateSession {tokenId : Int} {mac : String} (ip : String) {k : Session}
    (hk : w.db.tables.sessionByToken tokenId = some k) (hr : 0 < k.remainingAt w.now)
    (hm : validateMac mac = .ok ()) :
    ∃ id w', Fallible.exec noFault (migrateSession tokenId mac ip) w = (.ok id, w') ∧
      Migrated w w' k.toSessionRow tokenId mac ip := by
  obtain ⟨r, hd⟩ := exec_attempt_deauthorizeClient w k.toSessionRow
  have hid := Tables.createSession_of_token w.now mac ip k.expiresAt (token_exists hk)
  unfold migrateSession
  rw [Fallible.exec_bind_ok _ (exec_query w rfl (r := .ok (some k)) (by rw [Sql.run, hk]))]
  simp only
  rw [Fallible.exec_bind_ok _ (exec_remainingSeconds ..), if_neg (by omega), Fallible.exec_bind_ok _ hd,
    Fallible.exec_bind_ok _ (exec_sql_of_none _ rfl), Fallible.exec_bind_ok _ (exec_authorizeClient _ _ _ hm _ rfl),
    exec_sql_of_none _ rfl]
  exact ⟨_, _, Prod.ext hid rfl, rfl, rfl, rfl⟩

/-- A migration without a session that has a second left changes nothing. -/
theorem exec_migrateSession_none {tokenId : Int} (mac ip : String)
    (h : ∀ k, w.db.tables.sessionByToken tokenId = some k → k.remainingAt w.now ≤ 0) :
    ∃ err, Fallible.exec noFault (migrateSession tokenId mac ip) w = (.error err, w) := by
  unfold migrateSession
  cases hk : w.db.tables.sessionByToken tokenId with
  | none =>
    rw [Fallible.exec_bind_ok _ (exec_query w rfl (r := .ok none) (by rw [Sql.run, hk]))]
    exact ⟨_, rfl⟩
  | some k =>
    rw [Fallible.exec_bind_ok _ (exec_query w rfl (r := .ok (some k)) (by rw [Sql.run, hk]))]
    simp only
    rw [Fallible.exec_bind_ok _ (exec_remainingSeconds ..), if_pos (h k hk)]
    exact ⟨_, rfl⟩

theorem exec_migrateSession_ok {tokenId id : Int} {mac ip : String}
    (h : Fallible.exec noFault (migrateSession tokenId mac ip) w = (.ok id, w')) :
    ∃ k, w.db.tables.sessionByToken tokenId = some k ∧ 0 < k.remainingAt w.now ∧ validateMac mac = .ok () ∧
      Migrated w w' k.toSessionRow tokenId mac ip := by
  have hs := h
  unfold migrateSession at hs
  obtain ⟨q, _, hq, hs⟩ := Fallible.exec_bind_inv _ hs
  rw [exec_query w rfl rfl] at hq
  obtain ⟨hq, rfl⟩ := Prod.mk.inj hq
  cases hk : w.db.tables.sessionByToken tokenId with
  | none => rw [hk] at hq; cases hq; cases hs
  | some k =>
    rw [hk] at hq; cases hq
    obtain ⟨rem, _, hrem, hs⟩ := Fallible.exec_bind_inv _ hs
    rw [exec_remainingSeconds] at hrem
    cases hrem
    split at hs
    · cases hs
    · rename_i hpos
      obtain ⟨_, _, -, hs⟩ := Fallible.exec_bind_inv _ hs
      obtain ⟨_, _, -, hs⟩ := Fallible.exec_bind_inv _ hs
      obtain ⟨_, _, ha, -⟩ := Fallible.exec_bind_inv _ hs
      obtain ⟨hm, -⟩ := exec_authorizeClient_ok _ _ ha
      obtain ⟨id', w₁, hw, hmig⟩ := exec_migrateSession ip hk (by omega) hm
      rw [hw] at h; cases h
      exact ⟨k, rfl, by omega, hm, hmig⟩

/-! ## Opening a session, by redeeming or migrating -/

/-- What a call that opens session `new` in place of `old` leaves: of the active rows of other devices
only `old` is gone, the pair of `old` is released and the pair of `new` admitted, for less than a second
less than the session lasts. -/
structure Opened (w w' : World) (old : Option SessionRow) (new : SessionRow) : Prop where
  now : w'.now = w.now
  macValid : validateMac new.macAddress = .ok ()
  oldActive : ∀ k, old = some k → w.Active k
  active : ∀ s, w'.Active s ↔ (w.Active s ∧ some s ≠ old ∧ s.macAddress ≠ new.macAddress) ∨ s = new
  set : ∃ e, w'.set = (old.elim w.set (AuthSet.release w.set)).insert new.pair e ∧
    ∀ x, new.expiry = some x → x < e + nanosPerSec

theorem expiry_formatTimestamp {s : SessionRow} {now d e x : Int} (he : addDuration now d = .ok e)
    (hs : s.expiresAt = formatTimestamp (e / nanosPerSec)) (hx : s.expiry = some x) :
    x ≤ now + d * nanosPerSec ∧ now + d * nanosPerSec < x + nanosPerSec := by
  obtain ⟨rfl, hr⟩ := addDuration_ok he
  unfold SessionRow.expiry at hx
  rw [hs, parseTimestamp_formatTimestamp hr] at hx
  obtain rfl := Option.some.inj hx
  simp only
  unfold nanosPerSec
  omega

theorem Redeemed.opened {tokenId minutes d e id : Int} {mac ip : String} (r : Redeemed w w' tokenId minutes mac ip e)
    (hd : durationMinutes minutes = .ok d) (he : addDuration w.now d = .ok e) (hm : validateMac mac = .ok ())
    (hid : (w.db.tables.createSession w.now tokenId mac ip (formatTimestamp (e / nanosPerSec))).1 = .ok id) :
    ∃ new, Opened w w' none new ∧ new.pair = (mac, ip) ∧ new.tokenId = tokenId ∧
      new.expiresAt = formatTimestamp (e / nanosPerSec) := by
  refine ⟨w.db.tables.newSession w.now tokenId mac ip (formatTimestamp (e / nanosPerSec)),
    ⟨r.now, hm, (fun _ hk => nomatch hk), fun s => ?_, _, r.set, fun x hx => ?_⟩, rfl, rfl, rfl⟩
  · show w'.db.tables.Active s ↔ _
    rw [r.tables, Tables.active_redeemToken, Tables.active_createSession hid]
    exact or_congr_left (and_congr_right fun _ => (and_iff_right (by simp)).symm)
  · have hx := (expiry_formatTimestamp he rfl hx).1
    have hle := le_asU64 hd
    rw [durationMinutes_ok hd] at hle hx
    unfold nanosPerSec at *
    omega

theorem opened_of_createSession {tokenId minutes id : Int} {mac ip : String}
    (h : Fallible.exec noFault (createSession tokenId minutes mac ip) w = (.ok id, w')) :
    ∃ new, Opened w w' none new ∧ new.pair = (mac, ip) ∧ new.tokenId = tokenId := by
  obtain ⟨d, e, hd, he, hm, hid, r⟩ := exec_createSession_ok h
  obtain ⟨new, ho, hp, ht, -⟩ := r.opened hd he hm hid
  exact ⟨new, ho, hp, ht⟩

theorem Migrated.opened {tokenId : Int} {mac ip : String} {k : Session}
    (r : Migrated w w' k.toSessionRow tokenId mac ip)
    (hk : w.db.tables.sessionByToken tokenId = some k) (hm : validateMac mac = .ok ()) :
    ∃ new, Opened w w' (some k.toSessionRow) new ∧ new.pair = (mac, ip) ∧ new.tokenId = tokenId ∧
      new.expiresAt = k.expiresAt := by
  have ha := (Tables.sessionByToken_some hk).1
  have hid := Tables.createSession_of_token w.now mac ip k.expiresAt (token_exists hk)
  refine ⟨(w.db.tables.disconnectSession k.id).newSession w.now tokenId mac ip k.expiresAt,
    ⟨r.now, hm, fun x hx => ?_, fun s => ?_, _, r.set, fun x hx => ?_⟩, rfl, rfl, rfl⟩
  · cases hx; exact ha
  · show w'.db.tables.Active s ↔ _
    rw [r.tables, Tables.active_createSession hid]
    refine or_congr_left ?_
    show (w.db.tables.setSessionStatus _ _).Active s ∧ _ ↔ _
    rw [Tables.active_endSession (by decide), and_assoc]
    refine and_congr_right fun hs => and_congr_left fun _ => not_congr ?_
    exact ⟨fun he => congrArg some (hs.eq_of_id w.db.schema ha he), fun he => by cases he; rfl⟩
  · have hx' : k.expiry = some x := hx
    have hb := SessionRow.remainingAt_bounds hx' w.now
    have hc := asU64_of_nonneg (SessionRow.remainingAt_nonneg k.toSessionRow w.now)
    rw [hc]
    by_cases hlt : w.now < x
    · have := (hb.1 hlt).2
      omega
    · rw [hb.2 (by omega)]
      unfold nanosPerSec
      omega

theorem opened_of_migrateSession {tokenId id : Int} {mac ip : String}
    (h : Fallible.exec noFault (migrateSession tokenId mac ip) w = (.ok id, w')) :
    ∃ k new, w.db.tables.sessionByToken tokenId = some k ∧ Opened w w' (some k.toSessionRow) new ∧
      new.pair = (mac, ip) ∧ new.tokenId = tokenId ∧ new.expiresAt = k.expiresAt := by
  obtain ⟨k, hk, -, hm, hmig⟩ := exec_migrateSession_ok h
  obtain ⟨new, ho, hn⟩ := hmig.opened hk hm
  exact ⟨k, new, hk, ho, hn⟩

namespace Opened

variable {old : Option SessionRow} {new : SessionRow}

theorem onePerMac (h : Opened w w' old new) (hu : w.db.tables.OnePerMac) : w'.db.tables.OnePerMac := by
  refine hu.opened new fun s hs => ?_
  rcases (h.active s).1 hs with ⟨hs, -, hne⟩ | rfl
  · exact .inl ⟨hs, hne⟩
  · exact .inr rfl

/-- The entry of a pair that belongs neither to the old session nor to the new one. -/
theorem set_of_ne (h : Opened w w' old new) {p : String × String} (hn : p ≠ new.pair)
    (ho : ∀ k, old = some k → p ≠ k.pair) : w'.set p = w.set p := by
  obtain ⟨e, he, -⟩ := h.set
  rw [he, TimedSet.insert_of_ne _ hn]
  cases old with
  | none => rfl
  | some k => exact AuthSet.release_of_ne _ (ho k rfl)

end Opened

/-! ## Disconnecting -/

theorem exec_disconnect_ok {sessionId : Int} {u : Unit}
    (h : Fallible.exec noFault (disconnect sessionId) w = (.ok u, w')) :
    ∃ r ∈ w.db.tables.session, r.id = sessionId ∧ w'.now = w.now ∧ w'.set = w.set.erase r.pair ∧
      w'.db.tables = w.db.tables.disconnectSession sessionId := by
  unfold disconnect at h
  obtain ⟨q, _, hq, h⟩ := Fallible.exec_bind_inv _ h
  rw [exec_query w rfl rfl] at hq
  obtain ⟨hq, rfl⟩ := Prod.mk.inj hq
  cases hk : w.db.tables.sessionById sessionId with
  | none => rw [hk] at hq; cases hq; cases h
  | some k =>
    rw [hk] at hq; cases hq
    obtain ⟨hmem, hid⟩ := Tables.sessionById_some hk
    obtain ⟨_, _, hd, h⟩ := Fallible.exec_bind_inv _ h
    rw [exec_sql_of_none _ rfl] at h
    by_cases hm : validateMac k.macAddress = .ok ()
    · rw [exec_deauthorizeClient _ w _ hm, if_pos rfl] at hd
      cases hd; cases h
      exact ⟨_, hmem, hid, rfl, rfl, rfl⟩
    · obtain ⟨e, he⟩ := exec_deauthorizeClient_invalid (fun _ => none) w k.ipAddress hm
      rw [he] at hd; cases hd

/-- A disconnect that fails changes nothing. -/
theorem exec_disconnect_error {sessionId : Int} {e : Err}
    (h : Fallible.exec noFault (disconnect sessionId) w = (.error e, w')) : w' = w := by
  unfold disconnect at h
  rw [Fallible.exec_bind_ok _ (exec_query w rfl rfl)] at h
  cases hk : w.db.tables.sessionById sessionId with
  | none => rw [hk] at h; cases h; rfl
  | some k =>
    rw [hk] at h
    by_cases hm : validateMac k.macAddress = .ok ()
    · rw [Fallible.exec_bind_ok _ (exec_deauthorizeClient _ w _ hm), exec_sql_of_none _ rfl] at h
      cases h
    · obtain ⟨e', he⟩ := exec_deauthorizeClient_invalid (fun _ => none) w k.ipAddress hm
      rw [Fallible.exec_bind_error _ he] at h
      cases h; rfl

end Didicafe
