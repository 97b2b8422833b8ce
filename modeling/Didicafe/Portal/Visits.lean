/-
Complete visits to the portal: a code is looked up and redeemed or migrated, or the visit changes
nothing. As long as a visit ends no live session of another code, every code that is looked up as active
with a second left can be migrated.
-/
import Didicafe.Lib.Runs
import Didicafe.Session.Passes

namespace Didicafe

open Effect Runs

variable {w w' : World}

/-! ## One visit -/

/-- The visit redeems the unused token `k`. -/
structure Redeems (w : World) (code : String) (k : Token) (e : Int) : Prop where
  token : w.db.tables.tokenByCode code = some k
  status : k.status = .unused
  expiry : ∃ d, durationMinutes k.durationMinutes = .ok d ∧ addDuration w.now d = .ok e

/-- The visit migrates session `q` of the active token `k`. -/
structure Migrates (w : World) (code : String) (k : Token) (q : Session) : Prop where
  token : w.db.tables.tokenByCode code = some k
  status : k.status = .active
  session : w.db.tables.sessionByToken k.id = some q
  remaining : 0 < q.remainingAt w.now

theorem exec_validateToken (w : World) (code : String) :
    Fallible.exec noFault (validateToken code) w = (.ok (.ofToken (w.db.tables.tokenByCode code)), w) := by
  unfold validateToken
  rw [Fallible.exec_bind_ok _ (exec_query w rfl rfl), Fallible.exec_pure]

theorem ofToken_active {q : Option Token} {k : Token} (h : TokenLookup.ofToken q = .active k) :
    q = some k ∧ k.status = .active := by
  unfold TokenLookup.ofToken at h
  split at h
  · split at h <;> cases h
    exact ⟨rfl, ‹_›⟩
  · cases h

theorem token_exists_of_code {code : String} {k : Token} (h : w.db.tables.tokenByCode code = some k) :
    ∃ r ∈ w.db.tables.token, r.id = k.id :=
  ⟨_, (Tables.tokenByCode_some h).1, rfl⟩

theorem Redeems.eq {code : String} {k k' : Token} {e : Int} (r : Redeems w code k' e)
    (hk : w.db.tables.tokenByCode code = some k) : k' = k := Option.some.inj (r.token.symm.trans hk)

theorem Migrates.eq {code : String} {k k' : Token} {q : Session} (r : Migrates w code k' q)
    (hk : w.db.tables.tokenByCode code = some k) : k' = k := Option.some.inj (r.token.symm.trans hk)

/-- The outcome of a visit that leaves the world `w'`. -/
def Visited (w w' : World) (code mac ip : String) : Prop :=
  (∃ k e, Redeems w code k e ∧ Redeemed w w' k.id k.durationMinutes mac ip e) ∨
  (∃ k q, Migrates w code k q ∧ Migrated w w' q.toSessionRow k.id mac ip) ∨
  ((¬ ∃ k e, Redeems w code k e) ∧ (¬ ∃ k q, Migrates w code k q) ∧ w' = w)

section Visit

variable {code mac : String} {k : Token}

theorem run_unused (hm : validateMac mac = .ok ()) (hk : w.db.tables.tokenByCode code = some k)
    (hst : k.status = .unused) (ip : String) :
    Visited w (Fallible.exec noFault (createSession k.id k.durationMinutes mac ip) w).2 code mac ip := by
  by_cases hd : ∃ d e, durationMinutes k.durationMinutes = .ok d ∧ addDuration w.now d = .ok e
  · obtain ⟨d, e, hd, he⟩ := hd
    obtain ⟨id, w', hx, r⟩ := exec_createSession hd he hm (token_exists_of_code hk)
    rw [hx]
    exact .inl ⟨k, e, ⟨hk, hst, d, hd, he⟩, r⟩
  · obtain ⟨err, hx⟩ := exec_createSession_overflow k.id mac ip hd
    rw [hx]
    refine .inr (.inr ⟨?_, ?_, rfl⟩)
    · rintro ⟨k', e, r⟩
      obtain ⟨d, h⟩ := r.expiry
      rw [r.eq hk] at h
      exact hd ⟨d, e, h⟩
    · rintro ⟨k', q, r⟩
      have := r.status
      rw [r.eq hk, hst] at this; cases this

theorem run_active (hm : validateMac mac = .ok ()) (hk : w.db.tables.tokenByCode code = some k)
    (hst : k.status = .active) (ip : String) :
    Visited w (Fallible.exec noFault (migrateSession k.id mac ip) w).2 code mac ip := by
  by_cases hq : ∃ q, w.db.tables.sessionByToken k.id = some q ∧ 0 < q.remainingAt w.now
  · obtain ⟨q, hq, hr⟩ := hq
    obtain ⟨id, w', hx, m⟩ := exec_migrateSession ip hq hr hm
    rw [hx]
    exact .inr (.inl ⟨k, q, ⟨hk, hst, hq, hr⟩, m⟩)
  · have hnone : ∀ q, w.db.tables.sessionByToken k.id = some q → q.remainingAt w.now ≤ 0 := fun q hq' => by
      by_contra hr
      exact hq ⟨q, hq', by omega⟩
    obtain ⟨err, hx⟩ := exec_migrateSession_none mac ip hnone
    rw [hx]
    refine .inr (.inr ⟨?_, ?_, rfl⟩)
    · rintro ⟨k', e, r⟩
      have := r.status
      rw [r.eq hk, hst] at this; cases this
    · rintro ⟨k', q, r⟩
      have h := r.session
      rw [r.eq hk] at h
      exact hq ⟨q, h, r.remaining⟩

/-- A visit without effect: the code is neither unused nor active. -/
theorem visited_invalid (hk : ∀ k, w.db.tables.tokenByCode code = some k → k.status ≠ .unused ∧ k.status ≠ .active)
    (ip : String) : Visited w w code mac ip :=
  .inr (.inr ⟨fun ⟨k, _, r⟩ => (hk k r.token).1 r.status, fun ⟨k, _, r⟩ => (hk k r.token).2 r.status, rfl⟩)

/-- A visit from a valid MAC redeems, migrates or changes nothing. -/
theorem run_portalAuth (hm : validateMac mac = .ok ()) (w : World) (code ip : String) :
    Visited w ((portalAuth code mac ip).run noFault w).2 code mac ip := by
  unfold portalAuth
  rw [Prog.run_bind, run_run, exec_validateToken]
  cases hk : w.db.tables.tokenByCode code with
  | none => exact visited_invalid (fun _ hk' => nomatch hk.symm.trans hk') ip
  | some k =>
    cases hst : k.status with
    | unused =>
      have h := run_unused hm hk hst ip
      simp only [TokenLookup.ofToken, hst, Prog.run_bind, run_run]
      generalize Fallible.exec noFault (createSession k.id k.durationMinutes mac ip) w = x at h
      obtain ⟨_ | _, w'⟩ := x <;> exact h
    | active =>
      have h := run_active hm hk hst ip
      simp only [TokenLookup.ofToken, hst, Prog.run_bind, run_run]
      generalize Fallible.exec noFault (migrateSession k.id mac ip) w = x at h
      obtain ⟨_ | _, w'⟩ := x <;> exact h
    | expired | revoked =>
      simp only [TokenLookup.ofToken, hst]
      refine visited_invalid (fun k' hk' => ?_) ip
      obtain rfl := Option.some.inj (hk.symm.trans hk')
      rw [hst]; decide

end Visit

/-! ## All visits -/

inductive Visit where
  | auth (code mac ip : String)
  | elapse (nanos : Nat)

/-- A visit comes from a device with a valid MAC. -/
def Visit.step (w : World) : Visit → Option World
  | .auth code mac ip => if isValidMac mac then some ((portalAuth code mac ip).run noFault w).2 else none
  | .elapse nanos => some { w with now := w.now + nanos }

/-- No session and no token is active. -/
def Unsold (w : World) : Prop := (∀ s, ¬ w.Active s) ∧ ∀ r ∈ w.db.tables.token, r.status ≠ .active

def portal : Machine World Visit := ⟨Unsold, Visit.step⟩

/-- Every code looked up as active with a second or more left can be migrated to any device, for exactly the
time it has left. -/
def Usable (w : World) : Prop := ∀ code k e, (Fallible.exec noFault (validateToken code) w).1 = .ok (.active k) →
  k.toTokenRow.expiry = some e → w.now + nanosPerSec ≤ e → ∀ mac ip, validateMac mac = .ok () →
  ∃ id w', Fallible.exec noFault (migrateSession k.id mac ip) w = (.ok id, w') ∧
    (∃ s, w'.Active s ∧ s.tokenId = k.id ∧ s.pair = (mac, ip) ∧ s.expiry = some e) ∧
    ∃ x, w'.set (mac, ip) = some x ∧ e - nanosPerSec < x ∧ x ≤ e

/-- The visit ends no session of another code that has a second left. -/
def SparesOthers (w : World) : Visit → Prop
  | .auth code mac _ => ∀ k, ((∃ e, Redeems w code k e) ∨ ∃ q, Migrates w code k q) →
    ∀ s, w.Active s → s.macAddress = mac → s.tokenId = k.id ∨ s.remainingAt w.now ≤ 0
  | .elapse _ => True

/-- A token with an active session still has one after a session of token `k` opens that ends only sessions of `k`
on its device. -/
theorem Opened.session_of {old : Option SessionRow} {new s : SessionRow} {k id : Int} (o : Opened w w' old new)
    (hnew : new.tokenId = k) (hold : ∀ q, old = some q → q.tokenId = k) (hs : w.Active s) (hid : s.tokenId = id)
    (hsp : s.macAddress = new.macAddress → s.tokenId = k) : ∃ s, w'.Active s ∧ s.tokenId = id := by
  by_cases hk : id = k
  · exact ⟨new, (o.active new).2 (.inr rfl), hnew.trans hk.symm⟩
  · refine ⟨s, (o.active s).2 (.inl ⟨hs, fun hq => hk ?_, fun hmac => hk ?_⟩), hid⟩
    · rw [← hid]; exact hold s hq.symm
    · rw [← hid]; exact hsp hmac

/-- Active tokens in time have an active session, and active sessions an active token with the same expiry. -/
structure Backed (w : World) : Prop where
  session : ∀ r ∈ w.db.tables.token, r.status = .active → ∀ e, r.expiry = some e → w.now + nanosPerSec ≤ e →
    ∃ s, w.Active s ∧ s.tokenId = r.id
  token : ∀ s, w.Active s → ∃ r ∈ w.db.tables.token, r.id = s.tokenId ∧ r.status = .active ∧
    r.expiresAt = some s.expiresAt

namespace Backed

theorem expiry_eq {r : TokenRow} {s : SessionRow} (h : r.expiresAt = some s.expiresAt) : r.expiry = s.expiry := by
  unfold TokenRow.expiry SessionRow.expiry
  rw [h]; rfl

/-- The expiry of an active session is that of its token. -/
theorem expiry_of_token (h : Backed w) {s : SessionRow} {r : TokenRow} (hs : w.Active s)
    (hr : r ∈ w.db.tables.token) (hid : s.tokenId = r.id) : s.expiry = r.expiry := by
  obtain ⟨r', hr', hid', -, he⟩ := h.token s hs
  rw [Table.eq_of_key w.db.schema.tokenId hr' hr (hid'.trans hid)] at he
  exact (expiry_eq he).symm

theorem usable (h : Backed w) : Usable w := by
  intro code k e hv he hle mac ip hm
  rw [exec_validateToken] at hv
  obtain ⟨hk, hst⟩ := ofToken_active (Except.ok.inj hv)
  obtain ⟨hmem, -⟩ := Tables.tokenByCode_some hk
  obtain ⟨s, hs, hid⟩ := h.session _ hmem hst e he hle
  cases hq : w.db.tables.sessionByToken k.id with
  | none => exact absurd hid (Tables.sessionByToken_none w.db.schema hq hs)
  | some q =>
    obtain ⟨hqa, hqid⟩ := Tables.sessionByToken_some hq
    have hqe : q.expiry = some e := (h.expiry_of_token hqa hmem hqid).trans he
    have hb := ((SessionRow.remainingAt_bounds hqe w.now).1 (by unfold nanosPerSec at hle; omega))
    have hc := asU64_of_nonneg (q.remainingAt_nonneg w.now)
    obtain ⟨id, w', hx, m⟩ := exec_migrateSession ip hq (by unfold nanosPerSec at *; omega) hm
    obtain ⟨new, ho, hp, ht, hexp⟩ := m.opened hq hm
    refine ⟨id, w', hx, ⟨new, (ho.active new).2 (.inr rfl), ht, hp, ?_⟩, _, by rw [m.set, TimedSet.insert_self], ?_⟩
    · unfold SessionRow.expiry at hqe ⊢
      rw [hexp]; exact hqe
    · rw [hc]
      omega

/-- Opening session `new` of token `k` keeps the sessions of the other tokens in time, when it ends no session
of theirs that has a second left. -/
theorem session_of_opened (h : Backed w) {old : Option SessionRow} {new : SessionRow} {k : Int}
    (o : Opened w w' old new) (hnew : new.tokenId = k) (hold : ∀ q, old = some q → q.tokenId = k)
    (hsp : ∀ s, w.Active s → s.macAddress = new.macAddress → s.tokenId = k ∨ s.remainingAt w.now ≤ 0)
    {r : TokenRow} (hr : r ∈ w.db.tables.token) (hst : r.status = .active) {e : Int} (he : r.expiry = some e)
    (hle : w.now + nanosPerSec ≤ e) : ∃ s, w'.Active s ∧ s.tokenId = r.id := by
  obtain ⟨s, hs, hid⟩ := h.session r hr hst e he hle
  refine o.session_of hnew hold hs hid fun hmac => (hsp s hs hmac).resolve_right fun hrem => ?_
  have hse : s.expiry = some e := (h.expiry_of_token hs hr hid).trans he
  have := (SessionRow.remainingAt_bounds hse w.now).1
  unfold nanosPerSec at *
  omega

theorem redeemed (h : Backed w) {code mac ip : String} {k : Token} {e : Int} (hk : Redeems w code k e)
    (hm : validateMac mac = .ok ()) (r : Redeemed w w' k.id k.durationMinutes mac ip e)
    (hsp : ∀ s, w.Active s → s.macAddress = mac → s.tokenId = k.id ∨ s.remainingAt w.now ≤ 0) : Backed w' := by
  obtain ⟨hmem, -⟩ := Tables.tokenByCode_some hk.token
  obtain ⟨d, hd, he⟩ := hk.expiry
  have hid := Tables.createSession_of_token w.now mac ip (formatTimestamp (e / nanosPerSec)) ⟨_, hmem, rfl⟩
  obtain ⟨new, o, hp, ht, hexp⟩ := r.opened hd he hm hid
  obtain ⟨rfl, rfl⟩ := Prod.mk.inj hp
  have htok : w'.db.tables.token = (w.db.tables.redeemToken w.now k.id (formatTimestamp (e / nanosPerSec))).token := by
    rw [r.tables]
    exact congrArg (Table.updateWhere _ _) Tables.token_createSession
  constructor
  case session =>
    intro r hr hst x hx hle
    rw [htok] at hr
    rw [o.now] at hle
    rcases Table.mem_updateWhere.1 hr with ⟨a, -, hak, rfl⟩ | ⟨hr, -⟩
    · exact ⟨new, (o.active new).2 (.inr rfl), ht.trans (eq_of_beq hak).symm⟩
    · exact h.session_of_opened o ht (fun _ hq => nomatch hq) hsp hr hst hx hle
  case token =>
    intro s hs
    rw [htok]
    rcases (o.active s).1 hs with ⟨hs, -, -⟩ | rfl
    · obtain ⟨r, hr, hid, hst, hre⟩ := h.token s hs
      refine ⟨r, Table.mem_updateWhere.2 (.inr ⟨hr, ?_⟩), hid, hst, hre⟩
      -- the redeemed token was unused
      apply beq_false_of_ne
      intro hrk
      rw [Table.eq_of_key w.db.schema.tokenId hr hmem hrk, hk.status] at hst
      cases hst
    · refine ⟨_, Table.mem_updateWhere.2 (.inl ⟨_, hmem, beq_self_eq_true _, rfl⟩), ht.symm, rfl, ?_⟩
      rw [hexp]

theorem migrated (h : Backed w) {code mac ip : String} {k : Token} {q : Session} (hk : Migrates w code k q)
    (hm : validateMac mac = .ok ()) (m : Migrated w w' q.toSessionRow k.id mac ip)
    (hsp : ∀ s, w.Active s → s.macAddress = mac → s.tokenId = k.id ∨ s.remainingAt w.now ≤ 0) : Backed w' := by
  obtain ⟨hq, hqid⟩ := Tables.sessionByToken_some hk.session
  obtain ⟨new, o, hp, ht, hexp⟩ := m.opened hk.session hm
  obtain ⟨rfl, rfl⟩ := Prod.mk.inj hp
  have htok : w'.db.tables.token = w.db.tables.token := by rw [m.tables, Tables.token_createSession]; rfl
  constructor
  case session =>
    intro r hr hst x hx hle
    rw [htok] at hr
    rw [o.now] at hle
    exact h.session_of_opened o ht (fun q' hq' => by cases hq'; exact hqid) hsp hr hst hx hle
  case token =>
    intro s hs
    rw [htok]
    rcases (o.active s).1 hs with ⟨hs, -, -⟩ | rfl
    · exact h.token s hs
    · obtain ⟨r, hr, hid, hst, hre⟩ := h.token _ hq
      exact ⟨r, hr, hid.trans (hqid.trans ht.symm), hst, by rw [hexp]; exact hre⟩

theorem step {v : Visit} (h : Backed w) (hok : SparesOthers w v) (hs : portal.step w v = some w') : Backed w' := by
  cases v with
  | auth code mac ip =>
    have hs : (if isValidMac mac then some ((portalAuth code mac ip).run noFault w).2 else none) = some w' := hs
    split at hs
    · rename_i hm
      have hm := isValidMac_iff.1 hm
      cases hs
      rcases run_portalAuth hm w code ip with ⟨k, e, hk, r⟩ | ⟨k, q, hk, m⟩ | ⟨-, -, hw⟩
      · exact h.redeemed hk hm r (hok k (.inl ⟨e, hk⟩))
      · exact h.migrated hk hm m (hok k (.inr ⟨q, hk⟩))
      · rw [hw]; exact h
    · cases hs
  | elapse nanos =>
    cases hs
    constructor
    case session =>
      intro r hr hst e he hle
      have hle : w.now + (nanos : Int) + nanosPerSec ≤ e := hle
      exact h.session r hr hst e he (by omega)
    case token => exact h.token

end Backed

/-- In every run whose visits end no session of another code that has a second left, every code that is looked
up as active with a second left is usable. -/
theorem usable_of_sparesOthers {w : World} (h : Reach portal SparesOthers w) : Usable w := by
  refine (h.invariant (I := Backed) (fun w h0 => ?_) fun w v w' hi hok hs => hi.step hok hs).usable
  have h0 : Unsold w := h0
  exact ⟨fun r hr hst => absurd hst (h0.2 r hr), fun s hs => absurd hs (h0.1 s)⟩

theorem unsold_opening : Unsold .opening := by
  constructor
  · rintro s ⟨hs, -⟩
    cases hs
  · decide

def Visit.first : Visit := .auth "AAAA" "02:00:00:00:00:01" "10.0.0.2"

theorem sparesOthers_first : SparesOthers .opening .first := fun _ _ _ hs => by cases hs.1

theorem usable_firstVisit :
    Usable ((portalAuth "AAAA" "02:00:00:00:00:01" "10.0.0.2").run noFault .opening).2 :=
  usable_of_sparesOthers (.step (.start unsold_opening) sparesOthers_first rfl)

/-- One device redeems two codes, one after the other. -/
def twoCodes : List Visit :=
  [.first, .auth "BBBB" "02:00:00:00:00:01" "10.0.0.2"]

/-- After that the first code is looked up as active with an hour left and cannot be migrated. -/
theorem twoCodes_not_usable : ¬ ∀ w, Reach portal Free w → Usable w := by
  refine Machine.refute (M := portal) twoCodes unsold_opening (by decide) fun h => ?_
  have lookup : ∃ k, (Fallible.exec noFault (validateToken "AAAA")
      ((portal.trace .opening twoCodes).get (by decide))).1 = .ok (.active k) ∧ k.id = 1 ∧
      k.toTokenRow.expiry = some (1704099600 * nanosPerSec) := ⟨_, rfl, rfl, by decide⟩
  obtain ⟨k, hk, hid, he⟩ := lookup
  obtain ⟨id, w', hx, -⟩ := h "AAAA" k _ hk he (by decide) "02:00:00:00:00:01" "10.0.0.2" (by decide)
  rw [hid] at hx
  cases hx

end Didicafe
