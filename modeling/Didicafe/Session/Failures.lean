/-
What `create_session` and `migrate_session` leave when they fail. Their steps are not one transaction and none of them
is undone, so it depends on the step that fails: a session that is not created leaves the firewall open once the
client has been admitted, and a migration loses the old session once it has been closed.
-/
import Didicafe.Session.Calls

namespace Didicafe

open Effect

variable {env : Op → Option Err} {w w' : World} {tokenId minutes : Int} {mac ip : String}

/-! ## Creating a session -/

/-- The tokens, the sessions and the firewall are as before. -/
structure SameAccess (w w' : World) : Prop where
  token : w'.db.tables.token = w.db.tables.token
  session : w'.db.tables.session = w.db.tables.session
  set : w'.set = w.set

/-- The instant until which the firewall admits a client for its minutes. -/
def World.admittedUntil (w : World) (minutes : Int) : Int := w.now + asU64 (minutes * 60) * nanosPerSec

/-- The call gets past its firewall step, with expiry `e`. -/
structure Admits (env : Op → Option Err) (w : World) (minutes : Int) (mac ip : String) (e : Int) : Prop where
  expiry : ∃ d, durationMinutes minutes = .ok d ∧ addDuration w.now d = .ok e
  validMac : validateMac mac = .ok ()
  nft : env (.nft (.addElement mac ip (asU64 (minutes * 60)))) = none

/-- The session is inserted: the statement is not made to fail, and the token exists. -/
def Inserts (env : Op → Option Err) (w : World) (tokenId : Int) (mac ip : String) (e : Int) : Prop :=
  env (.sql (.createSession tokenId mac ip (formatTimestamp (e / nanosPerSec)))) = none ∧
    ∃ r ∈ w.db.tables.token, r.id = tokenId

/-- A step after the firewall's fails: the insertion, unless the client was admitted until the same instant anyway, or
the marking of the token. -/
def FailsLate (env : Op → Option Err) (w : World) (tokenId minutes : Int) (mac ip : String) : Prop :=
  ∃ e, Admits env w minutes mac ip e ∧
    (¬ Inserts env w tokenId mac ip e ∧ w.set (mac, ip) ≠ some (w.admittedUntil minutes) ∨
      Inserts env w tokenId mac ip e ∧
        env (.sql (.redeemToken tokenId (formatTimestamp (e / nanosPerSec)))) ≠ none)

/-- A call that does not get past its firewall step changes nothing. -/
theorem exec_createSession_rejected (tokenId : Int) (h : ¬ ∃ e, Admits env w minutes mac ip e) :
    ∃ err, Fallible.exec (failing env) (createSession tokenId minutes mac ip) w = (.error err, w) := by
  by_cases hexp : ∃ d e, durationMinutes minutes = .ok d ∧ addDuration w.now d = .ok e
  · obtain ⟨d, e, hd, he⟩ := hexp
    unfold createSession
    rw [Fallible.exec_bind_ok _ (exec_utcNow ..), hd, Fallible.exec_bind_ok _ (exec_ofExcept ..), he,
      Fallible.exec_bind_ok _ (exec_ofExcept ..)]
    by_cases hm : validateMac mac = .ok ()
    · by_cases hn : env (.nft (.addElement mac ip (asU64 (minutes * 60)))) = none
      · exact absurd ⟨e, ⟨d, hd, he⟩, hm, hn⟩ h
      · obtain ⟨err, hx⟩ := exec_authorizeClient_fault env w ip hn
        exact ⟨err, Fallible.exec_bind_error _ hx _⟩
    · obtain ⟨err, hx⟩ := exec_authorizeClient_invalid env w ip hm (asU64 (minutes * 60))
      exact ⟨err, Fallible.exec_bind_error _ hx _⟩
  · exact exec_createSession_overflow tokenId mac ip hexp

/-- Past the firewall step the client is admitted, and what remains are the two statements. -/
theorem exec_createSession_admitted {e : Int} (h : Admits env w minutes mac ip e) :
    Fallible.exec (failing env) (createSession tokenId minutes mac ip) w =
      Fallible.exec (failing env) (do
        let sessionId ← sql (.createSession tokenId mac ip (formatTimestamp (e / nanosPerSec)))
        sql (.redeemToken tokenId (formatTimestamp (e / nanosPerSec)))
        return sessionId) { w with set := w.set.insert (mac, ip) (w.admittedUntil minutes) } := by
  obtain ⟨d, hd, he⟩ := h.expiry
  unfold createSession
  rw [Fallible.exec_bind_ok _ (exec_utcNow ..), hd, Fallible.exec_bind_ok _ (exec_ofExcept ..), he,
    Fallible.exec_bind_ok _ (exec_ofExcept ..), Fallible.exec_bind_ok _ (exec_authorizeClient _ _ _ h.validMac _ h.nft)]
  rfl

theorem exec_createSession_uninserted {e : Int} (h : Admits env w minutes mac ip e)
    (hi : ¬ Inserts env w tokenId mac ip e) :
    ∃ err, Fallible.exec (failing env) (createSession tokenId minutes mac ip) w =
      (.error err, { w with set := w.set.insert (mac, ip) (w.admittedUntil minutes) }) := by
  rw [exec_createSession_admitted h]
  cases he : env (.sql (.createSession tokenId mac ip (formatTimestamp (e / nanosPerSec)))) with
  | some err => exact ⟨err, Fallible.exec_bind_error _ (exec_sql_of_some _ he) _⟩
  | none =>
    have hno : w.db.tables.token.any (fun r => r.id == tokenId) = false := by
      have := not_and.1 hi he
      simpa using this
    refine ⟨.sqlx "FOREIGN KEY constraint failed", Fallible.exec_bind_error _ (exec_query _ he ?_) _⟩
    show w.db.tables.createSession _ _ _ _ _ = _
    unfold Tables.createSession
    rw [hno]
    rfl

theorem exec_createSession_inserted {e : Int} (h : Admits env w minutes mac ip e)
    (hi : Inserts env w tokenId mac ip e) :
    ∃ w₁, w₁.db.tables.session.length = w.db.tables.session.length + 1 ∧
      Fallible.exec (failing env) (createSession tokenId minutes mac ip) w =
        Fallible.exec (failing env) (do
          sql (.redeemToken tokenId (formatTimestamp (e / nanosPerSec)))
          return w.db.tables.sessionSeq) w₁ := by
  have hid := Tables.createSession_of_token w.now mac ip (formatTimestamp (e / nanosPerSec)) hi.2
  rw [exec_createSession_admitted h]
  have hx := exec_sql_of_none { w with set := w.set.insert (mac, ip) (w.admittedUntil minutes) } hi.1
  exact ⟨_, Tables.length_createSession hid, Fallible.exec_bind_ok _ (hx.trans (Prod.ext hid rfl)) _⟩

/-- A call that fails leaves everything as it was exactly when it fails before or in its firewall step. -/
theorem sameAccess_iff (env : Op → Option Err) (w : World) (tokenId minutes : Int) (mac ip : String) :
    (∀ err w', Fallible.exec (failing env) (createSession tokenId minutes mac ip) w = (.error err, w') →
      SameAccess w w') ↔ ¬ FailsLate env w tokenId minutes mac ip := by
  constructor
  · rintro h ⟨e, ha, ⟨hi, hset⟩ | ⟨hi, hr⟩⟩
    · obtain ⟨err, hx⟩ := exec_createSession_uninserted ha hi
      have hsame : w.set.insert (mac, ip) (w.admittedUntil minutes) = w.set := (h _ _ hx).set
      rw [← hsame, TimedSet.insert_self] at hset
      exact hset rfl
    · obtain ⟨err, hr⟩ := Option.ne_none_iff_exists'.1 hr
      obtain ⟨w₁, hlen, hx⟩ := exec_createSession_inserted ha hi
      rw [Fallible.exec_bind_error _ (exec_sql_of_some w₁ hr)] at hx
      have hsame := congrArg List.length (h _ _ hx).session
      omega
  · intro h err w' hx
    by_cases ha : ∃ e, Admits env w minutes mac ip e
    · obtain ⟨e, ha⟩ := ha
      by_cases hi : Inserts env w tokenId mac ip e
      · -- the insertion went through, so the token was marked as well
        cases hr : env (.sql (.redeemToken tokenId (formatTimestamp (e / nanosPerSec)))) with
        | some err => exact absurd ⟨e, ha, .inr ⟨hi, by simp [hr]⟩⟩ h
        | none =>
          obtain ⟨w₁, -, hx'⟩ := exec_createSession_inserted ha hi
          rw [Fallible.exec_bind_ok _ (exec_sql_of_none w₁ hr)] at hx'
          rw [hx'] at hx
          cases hx
      · have hset : w.set (mac, ip) = some (w.admittedUntil minutes) := by
          by_contra hne
          exact h ⟨e, ha, .inl ⟨hi, hne⟩⟩
        obtain ⟨err', hx'⟩ := exec_createSession_uninserted ha hi
        rw [hx'] at hx
        cases hx
        refine ⟨rfl, rfl, ?_⟩
        show TimedSet.insert _ _ _ = _
        rw [TimedSet.insert, ← hset, Function.update_eq_self]
    · obtain ⟨err', hx'⟩ := exec_createSession_rejected tokenId ha
      rw [hx'] at hx
      cases hx
      exact ⟨rfl, rfl, rfl⟩

/-- A full disk at the first sale: the session is not inserted, and the firewall keeps the client admitted. -/
theorem freeAccess_not_sameAccess : ¬ ∀ (env : Op → Option Err) (w : World) (tokenId minutes : Int) (mac ip : String)
    (err : Err) (w' : World), Fallible.exec (failing env) (createSession tokenId minutes mac ip) w = (.error err, w') →
    SameAccess w w' := by
  intro h
  let env : Op → Option Err
    | .sql (.createSession ..) => some (.sqlx "database or disk is full")
    | _ => none
  have hset := (h env .opening 1 60 "02:00:00:00:00:01" "10.0.0.2" _ _ rfl).set
  have hsame := congrFun hset ("02:00:00:00:00:01", "10.0.0.2")
  exact absurd hsame (by decide)

/-! ## Migrating -/

/-- If the call fails, every session of the token that has time left is still there with its expiry, and while these
sessions last a migration in which nothing fails succeeds. -/
def KeepsPaidTime (env : Op → Option Err) (w : World) (tokenId : Int) (mac ip : String) : Prop :=
  ∀ err w', Fallible.exec (failing env) (migrateSession tokenId mac ip) w = (.error err, w') →
    ∀ s, w.Active s → s.tokenId = tokenId → 0 < s.remainingAt w.now →
      (∃ s', w'.Active s' ∧ s'.tokenId = tokenId ∧ s'.expiresAt = s.expiresAt) ∧
      ∀ (nanos : Nat) (mac' ip' : String), validateMac mac' = .ok () →
        (∀ q, w.Active q → q.tokenId = tokenId → 0 < q.remainingAt (w.now + nanos)) →
        ∃ id w'', Fallible.exec noFault (migrateSession tokenId mac' ip') { w' with now := w.now + nanos } =
          (.ok id, w'')

/-- The call closes session `k` and fails after that. -/
structure ClosesInVain (env : Op → Option Err) (w : World) (tokenId : Int) (mac ip : String) (k : Session) : Prop where
  lookup : env (.sql (.getActiveSessionByToken tokenId)) = none
  found : w.db.tables.sessionByToken tokenId = some k
  left : 0 < k.remainingAt w.now
  close : env (.sql (.disconnectSession k.id)) = none
  fails : validateMac mac ≠ .ok () ∨ env (.nft (.addElement mac ip (asU64 (k.remainingAt w.now)))) ≠ none ∨
    env (.sql (.createSession tokenId mac ip k.expiresAt)) ≠ none

theorem exec_attempt_deauthorizeClient_env (env : Op → Option Err) (w : World) (mac ip : String) :
    ∃ r set, Fallible.exec (failing env) (deauthorizeClient mac ip).attempt w = (.ok r, { w with set := set }) := by
  rw [exec_attempt]
  by_cases hm : validateMac mac = .ok ()
  · rw [exec_deauthorizeClient env w ip hm]
    split
    · exact ⟨_, _, rfl⟩
    · exact ⟨_, w.set, rfl⟩
  · obtain ⟨e, he⟩ := exec_deauthorizeClient_invalid env w ip hm
    rw [he]
    exact ⟨_, w.set, rfl⟩

/-- A migration that finds a session with time left and closes it goes on with the new pair. -/
theorem exec_migrateSession_closed (mac ip : String) {k : Session}
    (hl : env (.sql (.getActiveSessionByToken tokenId)) = none)
    (hk : w.db.tables.sessionByToken tokenId = some k) (hr : 0 < k.remainingAt w.now)
    (hc : env (.sql (.disconnectSession k.id)) = none) :
    ∃ w₁, Fallible.exec (failing env) (migrateSession tokenId mac ip) w =
        Fallible.exec (failing env) (do
          authorizeClient mac ip (asU64 (k.remainingAt w.now))
          sql (.createSession tokenId mac ip k.expiresAt)) w₁ ∧
      w₁.db.tables = w.db.tables.disconnectSession k.id := by
  obtain ⟨r, set, hd⟩ := exec_attempt_deauthorizeClient_env env w k.macAddress k.ipAddress
  unfold migrateSession
  rw [Fallible.exec_bind_ok _ (exec_query w hl (r := .ok (some k)) (by rw [Sql.run, hk]))]
  simp only
  rw [Fallible.exec_bind_ok _ (exec_remainingSeconds ..), if_neg (by omega), Fallible.exec_bind_ok _ hd,
    Fallible.exec_bind_ok _ (exec_sql_of_none _ hc)]
  exact ⟨_, rfl, rfl⟩

/-- A migration that does not close a session leaves the tables as they are. -/
theorem exec_migrateSession_unclosed (env : Op → Option Err) (w : World) (tokenId : Int) (mac ip : String)
    (h : ¬ ∃ k, env (.sql (.getActiveSessionByToken tokenId)) = none ∧ w.db.tables.sessionByToken tokenId = some k ∧
      0 < k.remainingAt w.now ∧ env (.sql (.disconnectSession k.id)) = none) :
    ∃ err w', Fallible.exec (failing env) (migrateSession tokenId mac ip) w = (.error err, w') ∧
      w'.db.tables = w.db.tables := by
  unfold migrateSession
  cases hl : env (.sql (.getActiveSessionByToken tokenId)) with
  | some err => exact ⟨err, w, Fallible.exec_bind_error _ (exec_sql_of_some w hl) _, rfl⟩
  | none =>
    cases hk : w.db.tables.sessionByToken tokenId with
    | none =>
      rw [Fallible.exec_bind_ok _ (exec_query w hl (r := .ok none) (by rw [Sql.run, hk]))]
      exact ⟨_, w, rfl, rfl⟩
    | some k =>
      rw [Fallible.exec_bind_ok _ (exec_query w hl (r := .ok (some k)) (by rw [Sql.run, hk]))]
      simp only
      rw [Fallible.exec_bind_ok _ (exec_remainingSeconds ..)]
      by_cases hr : k.remainingAt w.now ≤ 0
      · rw [if_pos hr]
        exact ⟨_, w, rfl, rfl⟩
      · obtain ⟨r, set, hd⟩ := exec_attempt_deauthorizeClient_env env w k.macAddress k.ipAddress
        rw [if_neg hr, Fallible.exec_bind_ok _ hd]
        cases hc : env (.sql (.disconnectSession k.id)) with
        | some err => exact ⟨err, _, Fallible.exec_bind_error _ (exec_sql_of_some _ hc) _, rfl⟩
        | none => exact absurd ⟨k, hl, hk, by omega, hc⟩ h

theorem exec_migrateSession_inVain {k : Session} (h : ClosesInVain env w tokenId mac ip k) :
    ∃ err w', Fallible.exec (failing env) (migrateSession tokenId mac ip) w = (.error err, w') ∧
      w'.db.tables = w.db.tables.disconnectSession k.id := by
  obtain ⟨w₁, hx, htab⟩ := exec_migrateSession_closed mac ip h.lookup h.found h.left h.close
  rw [hx]
  by_cases ha : validateMac mac = .ok () ∧ env (.nft (.addElement mac ip (asU64 (k.remainingAt w.now)))) = none
  · obtain ⟨err, hs⟩ := Option.ne_none_iff_exists'.1 ((h.fails.resolve_left (· ha.1)).resolve_left (· ha.2))
    rw [Fallible.exec_bind_ok _ (exec_authorizeClient _ _ _ ha.1 _ ha.2)]
    exact ⟨err, _, exec_sql_of_some _ hs, htab⟩
  · have hno : ∃ err, Fallible.exec (failing env) (authorizeClient mac ip (asU64 (k.remainingAt w.now))) w₁ =
        (.error err, w₁) := by
      rcases not_and_or.1 ha with hm | hn
      · exact exec_authorizeClient_invalid env w₁ ip hm _
      · exact exec_authorizeClient_fault env w₁ ip hn
    obtain ⟨err, hno⟩ := hno
    exact ⟨err, w₁, Fallible.exec_bind_error _ hno _, htab⟩

/-- A migration that fails leaves the tables as they are, or closes a session in vain. -/
theorem exec_migrateSession_error {err : Err}
    (h : Fallible.exec (failing env) (migrateSession tokenId mac ip) w = (.error err, w')) :
    w'.db.tables = w.db.tables ∨
      ∃ k, ClosesInVain env w tokenId mac ip k ∧ w'.db.tables = w.db.tables.disconnectSession k.id := by
  by_cases hk : ∃ k, env (.sql (.getActiveSessionByToken tokenId)) = none ∧
      w.db.tables.sessionByToken tokenId = some k ∧ 0 < k.remainingAt w.now ∧
      env (.sql (.disconnectSession k.id)) = none
  · obtain ⟨k, hl, hk, hr, hc⟩ := hk
    by_cases hf : ClosesInVain env w tokenId mac ip k
    · obtain ⟨err', w₁, hx, htab⟩ := exec_migrateSession_inVain hf
      rw [hx] at h
      cases h
      exact .inr ⟨k, hf, htab⟩
    · -- nothing fails after closing, so the call does not fail
      obtain ⟨w₁, hx, htab⟩ := exec_migrateSession_closed mac ip hl hk hr hc
      have hm : validateMac mac = .ok () := by
        by_contra hm
        exact hf ⟨hl, hk, hr, hc, .inl hm⟩
      have hn : env (.nft (.addElement mac ip (asU64 (k.remainingAt w.now)))) = none := by
        by_contra hn
        exact hf ⟨hl, hk, hr, hc, .inr (.inl hn)⟩
      have hs : env (.sql (.createSession tokenId mac ip k.expiresAt)) = none := by
        by_contra hs
        exact hf ⟨hl, hk, hr, hc, .inr (.inr hs)⟩
      have hid := Tables.createSession_of_token w₁.now mac ip k.expiresAt (htab ▸ token_exists hk)
      rw [hx, Fallible.exec_bind_ok _ (exec_authorizeClient _ _ _ hm _ hn), exec_sql_of_none _ hs] at h
      rw [show (Sql.run _ _ (.createSession tokenId mac ip k.expiresAt)).1 = _ from hid] at h
      cases h
  · obtain ⟨err', w₁, hx, htab⟩ := exec_migrateSession_unclosed env w tokenId mac ip hk
    rw [hx] at h
    cases h
    exact .inl htab

/-- While the active sessions of a token that has one have time left, it can be migrated. -/
theorem exec_migrateSession_sound {mac ip : String} (hs : ∃ s, w.Active s ∧ s.tokenId = tokenId)
    (hr : ∀ q, w.Active q → q.tokenId = tokenId → 0 < q.remainingAt w.now) (hm : validateMac mac = .ok ()) :
    ∃ id w', Fallible.exec noFault (migrateSession tokenId mac ip) w = (.ok id, w') := by
  obtain ⟨s, ha, hid⟩ := hs
  cases hk : w.db.tables.sessionByToken tokenId with
  | none => exact absurd hid (Tables.sessionByToken_none w.db.schema hk ha)
  | some k =>
    obtain ⟨hka, hkt⟩ := Tables.sessionByToken_some hk
    obtain ⟨id, w', hx, -⟩ := exec_migrateSession ip hk (hr _ hka hkt) hm
    exact ⟨id, w', hx⟩

/-- A migration that fails keeps the paid time exactly when it does not close a session in vain, or the token has
another active session with the same expiry. -/
theorem keepsPaidTime_iff (env : Op → Option Err) (w : World) (tokenId : Int) (mac ip : String) :
    KeepsPaidTime env w tokenId mac ip ↔ ∀ k, ClosesInVain env w tokenId mac ip k →
      ∃ q, w.Active q ∧ q.tokenId = tokenId ∧ q.id ≠ k.id ∧ q.expiresAt = k.expiresAt := by
  constructor
  · intro h k hk
    obtain ⟨err, w', hx, htab⟩ := exec_migrateSession_inVain hk
    obtain ⟨ha, ht⟩ := Tables.sessionByToken_some hk.found
    obtain ⟨⟨q, hq, hqt, hqe⟩, -⟩ := h err w' hx _ ha ht hk.left
    have hq : w'.db.tables.Active q := hq
    rw [htab, Tables.disconnectSession, Tables.active_endSession (by decide)] at hq
    exact ⟨q, hq.1, hqt, hq.2, hqe⟩
  · intro h err w' hx s hs ht hr
    -- every session of the token that is left was there before
    have keep : (∃ s', w'.Active s' ∧ s'.tokenId = tokenId ∧ s'.expiresAt = s.expiresAt) ∧
        ∀ q, w'.Active q → w.Active q := by
      rcases exec_migrateSession_error hx with htab | ⟨k, hk, htab⟩
      · unfold World.Active
        rw [htab]
        exact ⟨⟨s, hs, ht, rfl⟩, fun _ hq => hq⟩
      · have active (q : SessionRow) : w'.Active q ↔ w.Active q ∧ q.id ≠ k.id := by
          unfold World.Active
          rw [htab]
          exact Tables.active_endSession (by decide) q
        refine ⟨?_, fun q hq => ((active q).1 hq).1⟩
        by_cases hsk : s.id = k.id
        · obtain ⟨q, hq, hqt, hqk, hqe⟩ := h k hk
          have ha := (Tables.sessionByToken_some hk.found).1
          rw [Tables.Active.eq_of_id w.db.schema hs ha hsk]
          exact ⟨q, (active q).2 ⟨hq, hqk⟩, hqt, hqe⟩
        · exact ⟨s, (active s).2 ⟨hs, hsk⟩, ht, rfl⟩
    obtain ⟨⟨s', hs', ht', he'⟩, hsub⟩ := keep
    refine ⟨⟨s', hs', ht', he'⟩, fun nanos mac' ip' hm hlast => ?_⟩
    exact exec_migrateSession_sound ⟨s', hs', ht'⟩ (fun q hq hqt => hlast q (hsub q hq) hqt) hm

/-- A full disk when the first customer comes with another device: the old session is closed and no new one opened. -/
theorem lostTime_not_keepsPaidTime : ¬ ∀ (env : Op → Option Err) (w : World) (tokenId : Int) (mac ip : String),
    KeepsPaidTime env w tokenId mac ip := by
  intro h
  let env : Op → Option Err
    | .sql (.createSession ..) => some (.sqlx "database or disk is full")
    | _ => none
  obtain ⟨⟨s', hs', -⟩, -⟩ := h env .firstSale 1 "02:00:00:00:00:02" "10.0.0.3" _ _ rfl firstSession
    (active_firstSale.2 rfl) rfl (by decide)
  have hnone : (Fallible.exec (failing env) (migrateSession 1 "02:00:00:00:00:02" "10.0.0.3")
      .firstSale).2.db.tables.session.all (!·.isActive) = true := by decide
  have := List.all_eq_true.1 hnone s' hs'.1
  rw [hs'.2] at this
  cases this

end Didicafe
