/-
Any number of portal requests, interleaved operation by operation, none of which fails. A code has at
most one active session as long as the requests of two devices for it take turns: one starts to redeem or
to migrate the token only when the other has done its part.

The lookup, the insertion and the marking of a token are separate operations, and the insertion only ends
sessions of the inserting device, so requests that do not take turns can both insert.
-/
import Didicafe.Lib.Runs
import Didicafe.Portal.Points
import Didicafe.Session.Calls

namespace Didicafe

open Effect Runs AuthPoint

variable {w w' : World} {req : Request} {pt pt' : AuthPoint}

/-! ## The effect of an operation -/

/-- The token for which a request is on its way to insert a session. -/
def AuthPoint.opening : AuthPoint → Option Int
  | .clock k | .authorize k _ | .insert k _ | .check k _ | .release k _ _ | .close k _ _ | .reauthorize k _ _
  | .reinsert k _ => some k.id
  | _ => none

/-- No token becomes unused. -/
def TokensKept (t t' : Tables) : Prop := ∀ r ∈ t'.token, r.status = .unused → r ∈ t.token

theorem AuthStep.tokens (h : AuthStep req none w w' pt pt') : TokensKept w.db.tables w'.db.tables := by
  obtain ⟨opens, hc, -⟩ := h.changes
  exact fun r hr hst => hc.token r hr (.inr hst)

/-- An operation only makes a row active that it inserts, for the token the request redeems or migrates. -/
theorem AuthStep.active_of (h : AuthStep req none w w' pt pt') {s : SessionRow} (hs : w'.db.tables.Active s) :
    w.db.tables.Active s ∨ s.macAddress = req.mac ∧ pt.opening = some s.tokenId ∧
      (pt'.marking = some s.tokenId ∨ pt.redeeming = none) := by
  cases h with
  | unused hw | active hw | timed _ hw | found hw | checked _ hw | skipped _ hw => rw [hw] at hs; exact .inl hs
  | authorized hdb | released hdb | reauthorized hdb => rw [hdb] at hs; exact .inl hs
  | inserted hid ht =>
    rw [ht, Tables.active_createSession hid] at hs
    rcases hs with ⟨hs, -⟩ | rfl
    · exact .inl hs
    · exact .inr ⟨rfl, rfl, .inl rfl⟩
  | reinserted hid ht =>
    rw [ht, Tables.active_createSession hid] at hs
    rcases hs with ⟨hs, -⟩ | rfl
    · exact .inl hs
    · exact .inr ⟨rfl, rfl, .inr rfl⟩
  | redeemed ht => rw [ht] at hs; exact .inl hs
  | closed ht =>
    rw [ht] at hs
    exact .inl ((Tables.active_endSession (by decide) s).1 hs).1
  | ended _ ht => rw [ht] at hs; exact .inl hs

/-! ## What a request knows at its point -/

/-- The token is no longer unused. -/
def Used (t : Tables) (id : Int) : Prop := ∀ r ∈ t.token, r.id = id → r.status ≠ .unused

/-- All active sessions of the token are on the device. -/
def OnlyOn (t : Tables) (id : Int) (mac : String) : Prop := ∀ s, t.Active s → s.tokenId = id → s.macAddress = mac

/-- On the way of an unused token the sessions of the token are on the request's device; on the way of an
active one they are so once the old session is closed. -/
def Knows (t : Tables) (req : Request) : AuthPoint → Prop
  | .clock k | .authorize k _ | .insert k _ => OnlyOn t k.id req.mac
  | .find k => Used t k.id
  | .check k q | .release k q _ | .close k q _ => Used t k.id ∧
    ∀ s, t.Active s → s.tokenId = k.id → s.id = q.id ∨ s.macAddress = req.mac
  | .reauthorize k _ _ | .reinsert k _ => Used t k.id ∧ OnlyOn t k.id req.mac
  | .lookup | .redeem .. | .finished _ => True

theorem Used.keep {t t' : Tables} {id : Int} (h : Used t id) (ht : TokensKept t t') : Used t' id :=
  fun r hr hid hst => h r (ht r hr hst) hid hst

theorem Sold.used {t : Tables} {id : Int} (h : Sold t id) : Used t id := by
  intro r hr hid hst
  have := h r hr hid
  rw [hst] at this
  rcases this with h | h <;> cases h

/-- What a request knows stays true as long as sessions of its token are only opened on its device. -/
theorem Knows.keep {t t' : Tables} (h : Knows t req pt) (ht : TokensKept t t')
    (hs : ∀ s, t'.Active s → pt.opening = some s.tokenId → t.Active s ∨ s.macAddress = req.mac) :
    Knows t' req pt := by
  have only {k : Token} (hk : pt.opening = some k.id) (h : OnlyOn t k.id req.mac) : OnlyOn t' k.id req.mac :=
    fun s ha hid => (hs s ha (hid ▸ hk)).elim (fun ha => h s ha hid) id
  cases pt with
  | lookup | redeem | finished => trivial
  | clock | authorize | insert => exact only rfl h
  | find => exact Used.keep h ht
  | reauthorize | reinsert => exact ⟨h.1.keep ht, only rfl h.2⟩
  | check k | release k | close k =>
    refine ⟨h.1.keep ht, fun s ha hid => ?_⟩
    exact (hs s ha (congrArg some hid.symm)).elim (fun ha => h.2 s ha hid) .inr

/-- What a request knows after an operation of its own; at the lookup of an unused token it has to be known
that its sessions are on the device. -/
theorem AuthStep.knows (h : AuthStep req none w w' pt pt') (hk : Knows w.db.tables req pt)
    (hone : w.db.tables.OnePerToken)
    (hun : pt = .lookup → ∀ k, w.db.tables.tokenByCode req.code = some k → k.status = .unused →
      OnlyOn w.db.tables k.id req.mac) :
    Knows w'.db.tables req pt' := by
  cases h with
  | unused hw hc hst => rw [hw]; exact hun rfl _ hc hst
  | active hw hc hst => rw [hw]; exact (sold_of_active w.db.schema (Tables.tokenByCode_some hc).1 hst).used
  | timed _ hw | checked _ hw | skipped _ hw => rw [hw]; exact hk
  | authorized hdb | released hdb | reauthorized hdb => rw [hdb]; exact hk
  | found hw hq =>
    rw [hw]
    obtain ⟨hqa, hqt⟩ := Tables.sessionByToken_some hq
    exact ⟨hk, fun s ha hid => .inl (congrArg SessionRow.id (hone.eq ha hqa (hid.trans hqt.symm)))⟩
  | closed ht _ hpt =>
    rcases hpt with rfl | ⟨r, rfl⟩
    · rw [ht]
      refine ⟨hk.1, fun s ha hid => ?_⟩
      obtain ⟨ha, hne⟩ := (Tables.active_endSession (by decide) s).1 ha
      exact (hk.2 s ha hid).resolve_left hne
    · trivial
  | inserted | redeemed | reinserted | ended => trivial

theorem Knows.used {t : Tables} (h : Knows t req pt) {id : Int} (ho : pt.opening = some id) (hr : pt.redeeming = none) :
    Used t id := by
  cases pt with
  | lookup | redeem | find | finished => cases ho
  | clock | authorize | insert => cases hr
  | check | release | close | reauthorize | reinsert => cases ho; exact h.1

/-- An operation keeps one active session per token. -/
theorem AuthStep.onePerToken (h : AuthStep req none w w' pt pt') (hk : Knows w.db.tables req pt)
    (hone : w.db.tables.OnePerToken) : w'.db.tables.OnePerToken := by
  cases h with
  | unused hw | active hw | timed _ hw | found hw | checked _ hw | skipped _ hw => rw [hw]; exact hone
  | authorized hdb | released hdb | reauthorized hdb => rw [hdb]; exact hone
  | inserted hid ht =>
    rw [ht]
    exact hone.createSession hid fun s ha hm he => hm (hk s ha he)
  | reinserted hid ht =>
    rw [ht]
    exact hone.createSession hid fun s ha hm he => hm (hk.2 s ha he)
  | redeemed ht => rw [ht]; exact hone
  | closed ht => rw [ht]; exact hone.setSessionStatus _ (by decide)
  | ended _ ht => rw [ht]; exact hone

/-! ## All requests together -/

/-- A request with the point it has reached. -/
abbrev Client := Request × AuthPoint

def Client.thread (x : Client) : Thread Request Op Op.Out PortalResponse := ⟨x.1, x.2.program x.1⟩

/-- The state of the database and the requests: the requests that open a session of one token are from one
device, and an unused token has active sessions only on devices about to mark it. -/
structure Sound (t : Tables) (cs : List Client) : Prop where
  onePerToken : t.OnePerToken
  device : ∀ x ∈ cs, ∀ y ∈ cs, ∀ id, x.2.opening = some id → y.2.opening = some id → x.1.mac = y.1.mac
  knows : ∀ x ∈ cs, Knows t x.1 x.2
  unused : ∀ r ∈ t.token, r.status = .unused → ∀ s, t.Active s → s.tokenId = r.id →
    ∃ x ∈ cs, x.2.marking = some r.id ∧ x.1.mac = s.macAddress

/-- Request `x` takes its turn: when it has found a token unused, the others that redeem the token are from its
device, and when it has found a session to migrate, so are the others that open a session of the token. -/
structure Turn (t : Tables) (cs : List Client) (x : Client) : Prop where
  redeem : ∀ k, x.2 = .lookup → t.tokenByCode x.1.code = some k → k.status = .unused →
    ∀ y ∈ cs, y.2.redeeming = some k.id → y.1.mac = x.1.mac
  migrate : ∀ k q, x.2 = .find k → t.sessionByToken k.id = some q →
    ∀ y ∈ cs, y.2.opening = some k.id → y.1.mac = x.1.mac

section Advance

variable {cs : List Client} {x : Client}

theorem AuthPoint.redeeming_of_opening {id : Int} (h : pt.opening = some id) :
    pt.redeeming = some id ∨ pt.redeeming = none := by
  cases pt <;> first | exact .inl h | exact .inr rfl | cases h

/-- The other requests for a token that a request is on its way to open a session of are from its device. -/
theorem Sound.device_of_step (h : Sound w.db.tables cs) (hx : x ∈ cs) (hturn : Turn w.db.tables cs x)
    (hs : AuthStep x.1 none w w' x.2 pt') {id : Int} (ho : pt'.opening = some id) {y : Client} (hy : y ∈ cs)
    (hyo : y.2.opening = some id) : y.1.mac = x.1.mac := by
  obtain ⟨req, pt⟩ := x
  cases hs with
  | unused _ hc hst =>
    cases ho
    rcases AuthPoint.redeeming_of_opening hyo with hr | hr
    · exact hturn.redeem _ rfl hc hst y hy hr
    · -- whoever migrates a token has seen that it is used
      exact absurd hst ((h.knows y hy).used hyo hr _ (Tables.tokenByCode_some hc).1 rfl)
  | found _ hq => cases ho; exact hturn.migrate _ _ rfl hq y hy hyo
  | timed | authorized | checked | skipped | released | reauthorized => exact h.device y hy _ hx id hyo ho
  | closed _ _ hpt =>
    rcases hpt with rfl | ⟨r, rfl⟩
    · exact h.device y hy _ hx id hyo ho
    · cases ho
  | active | inserted | redeemed | reinserted | ended => cases ho

theorem Sound.onlyOn_of_unused (h : Sound w.db.tables cs) (hturn : Turn w.db.tables cs x) (hpt : x.2 = .lookup)
    {k : Token} (hk : w.db.tables.tokenByCode x.1.code = some k) (hst : k.status = .unused) :
    OnlyOn w.db.tables k.id x.1.mac := by
  intro s ha hid
  obtain ⟨y, hy, hm, hmac⟩ := h.unused _ (Tables.tokenByCode_some hk).1 hst s ha hid
  exact hmac.symm.trans (hturn.redeem k hpt hk hst y hy (AuthPoint.redeeming_of_marking hm))

/-- An operation of a request in its turn keeps the state sound. -/
theorem Sound.advance (h : Sound w.db.tables cs) {i : Nat} (hi : cs[i]? = some x) (hturn : Turn w.db.tables cs x)
    (hs : AuthStep x.1 none w w' x.2 pt') : Sound w'.db.tables (cs.set i (x.1, pt')) := by
  have hx : x ∈ cs := List.mem_of_getElem? hi
  have hnew : (x.1, pt') ∈ cs.set i (x.1, pt') := List.mem_set (List.getElem?_eq_some_iff.1 hi).1 _
  have hother {y : Client} (hy : y ∈ cs) {id : Int} (ho : pt'.opening = some id) (hyo : y.2.opening = some id) :
      y.1.mac = x.1.mac := h.device_of_step hx hturn hs ho hy hyo
  constructor
  case onePerToken => exact hs.onePerToken (h.knows x hx) h.onePerToken
  case device =>
    intro a ha b hb id hao hbo
    rcases List.mem_or_eq_of_mem_set ha with ha | rfl <;> rcases List.mem_or_eq_of_mem_set hb with hb | rfl
    · exact h.device a ha b hb id hao hbo
    · exact hother ha hbo hao
    · exact (hother hb hao hbo).symm
    · rfl
  case knows =>
    intro y hy
    rcases List.mem_or_eq_of_mem_set hy with hy | rfl
    · refine (h.knows y hy).keep hs.tokens fun s ha ho => ?_
      refine (hs.active_of ha).imp id fun ⟨hm, hxo, _⟩ => hm.trans (h.device x hx y hy _ hxo ho)
    · exact hs.knows (h.knows x hx) h.onePerToken fun hpt _ hk hst => h.onlyOn_of_unused hturn hpt hk hst
  case unused =>
    intro r hr hst s ha hid
    have hr₀ := hs.tokens r hr hst
    rcases hs.active_of ha with ha | ⟨hm, hxo, hmark | hmig⟩
    · obtain ⟨y, hy, hym, hmac⟩ := h.unused r hr₀ hst s ha hid
      refine ⟨y, Pool.mem_set_of_ne hi hy ?_, hym, hmac⟩
      rintro rfl
      exact (hs.sold_of_marking hym).used r hr rfl hst
    · exact ⟨_, hnew, hid ▸ hmark, hm.symm⟩
    · exact absurd hst ((h.knows x hx).used hxo hmig r hr₀ hid.symm)

end Advance

/-! ## Runs -/

abbrev Requests := Pool Request Op Op.Out PortalResponse World

/-- A client posts a code, a request performs its next operation, or time passes. -/
inductive PortalEvent where
  | post (req : Request)
  | advance (i : Nat)
  | elapse (nanos : Nat)

/-- A request comes from a device with a valid MAC. -/
def Requests.step (p : Requests) : PortalEvent → Option Requests
  | .post req => if isValidMac req.mac then some (p.spawn ⟨req, portalAuth req.code req.mac req.ip⟩) else none
  | .advance i => p.advance noFault i
  | .elapse nanos => some { p with shared := { p.shared with now := p.shared.now + nanos } }

/-- No request is under way, each token has at most one active session, and an unused token has none. -/
structure Requests.Idle (p : Requests) : Prop where
  threads : p.threads = []
  onePerToken : p.shared.db.tables.OnePerToken
  unused : ∀ r ∈ p.shared.db.tables.token, r.status = .unused →
    ∀ s, p.shared.db.tables.Active s → s.tokenId ≠ r.id

def requests : Machine Requests PortalEvent := ⟨Requests.Idle, Requests.step⟩

/-- Every request at a point at which it deals with the token is from the device. -/
def Requests.OnlyFrom (p : Requests) (deals : AuthPoint → Option Int) (id : Int) (mac : String) : Prop :=
  ∀ y ∈ p.threads, ∀ pt, y.rest = pt.program y.tag → deals pt = some id → y.tag.mac = mac

/-- A request looks a code up as unused only when no other device is redeeming its token, and reads the session
to migrate only when no other device is on its way to open one for its token. -/
def TakeTurns (p : Requests) : PortalEvent → Prop
  | .advance i => ∀ t, p.threads[i]? = some t →
    (∀ k, t.rest = AuthPoint.lookup.program t.tag → p.shared.db.tables.tokenByCode t.tag.code = some k →
      k.status = .unused → p.OnlyFrom AuthPoint.redeeming k.id t.tag.mac) ∧
    ∀ k q, t.rest = (AuthPoint.find k).program t.tag → p.shared.db.tables.sessionByToken k.id = some q →
      p.OnlyFrom AuthPoint.opening k.id t.tag.mac
  | .post _ | .elapse _ => True

/-- The requests of the pool are at points at which the state is sound. -/
def Requests.Sound (p : Requests) : Prop :=
  ∃ cs : List Client, p.threads = cs.map Client.thread ∧ Didicafe.Sound p.shared.db.tables cs

theorem Sound.post {t : Tables} {cs : List Client} (h : Sound t cs) (req : Request) :
    Sound t (cs ++ [(req, .lookup)]) := by
  have old {x : Client} (hx : x ∈ cs ++ [(req, .lookup)]) : x ∈ cs ∨ x = (req, .lookup) :=
    (List.mem_append.1 hx).imp id List.mem_singleton.1
  constructor
  case onePerToken => exact h.onePerToken
  case device =>
    intro a ha b hb id hao hbo
    rcases old ha with ha | rfl <;> rcases old hb with hb | rfl
    · exact h.device a ha b hb id hao hbo
    · cases hbo
    · cases hao
    · rfl
  case knows =>
    intro y hy
    rcases old hy with hy | rfl
    · exact h.knows y hy
    · trivial
  case unused =>
    intro r hr hst s ha hid
    obtain ⟨y, hy, hm⟩ := h.unused r hr hst s ha hid
    exact ⟨y, List.mem_append.2 (.inl hy), hm⟩

theorem Requests.Sound.advance {p p' : Requests} (h : p.Sound) {i : Nat} (hok : TakeTurns p (.advance i))
    (hs : p.advance noFault i = some p') : p'.Sound := by
  obtain ⟨cs, hcs, hsound⟩ := h
  obtain ⟨x, y, hx, ht, hy, rfl⟩ := Pool.advance_map hcs hs
  have hy : (x.2.program x.1).step (World.exec none) p.shared = some y := hy
  have hok := hok x.thread ht
  obtain ⟨pt', hpt, hstep⟩ := auth_step hy
  have only {deals : AuthPoint → Option Int} {id : Int} (hd : p.OnlyFrom deals id x.1.mac) :
      ∀ y ∈ cs, deals y.2 = some id → y.1.mac = x.1.mac :=
    fun y hy => hd y.thread (hcs ▸ List.mem_map_of_mem hy) y.2 rfl
  have hturn : Turn p.shared.db.tables cs x := by
    obtain ⟨req, pt⟩ := x
    constructor
    · rintro k rfl hk hst
      exact only (hok.1 k rfl hk hst)
    · rintro k q rfl hq
      exact only (hok.2 k q rfl hq)
  refine ⟨cs.set i (x.1, pt'), ?_, hsound.advance hx hturn hstep⟩
  rw [List.map_set, hpt]; rfl

/-- In every run in which the devices take turns, each token has at most one active session. -/
theorem onePerToken_of_takeTurns {p : Requests} (h : Reach requests TakeTurns p) :
    p.shared.db.tables.OnePerToken := by
  have hsound : p.Sound := by
    refine h.invariant (I := Requests.Sound) (fun p h0 => ?_) fun p c p' hi hok hs => ?_
    · obtain ⟨hthreads, hone, hunused⟩ : p.Idle := h0
      refine ⟨[], hthreads, hone, fun _ hx => absurd hx List.not_mem_nil,
        fun _ hx => absurd hx List.not_mem_nil, fun r hr hst s ha hid => ?_⟩
      exact absurd hid (hunused r hr hst s ha)
    · cases c with
      | post req =>
        have hs : (if isValidMac req.mac then some (p.spawn _) else none) = some p' := hs
        split at hs <;> cases hs
        obtain ⟨cs, hcs, hsound⟩ := hi
        refine ⟨cs ++ [(req, AuthPoint.lookup)], ?_, hsound.post req⟩
        show p.threads ++ _ = _
        rw [hcs, List.map_append]; rfl
      | advance i => exact hi.advance hok hs
      | elapse nanos => cases hs; exact hi
  obtain ⟨cs, -, hsound⟩ := hsound
  exact hsound.onePerToken

/-! ## Two requests that take turns, and two that do not -/

/-- The request has not looked its code up yet, or it has ended. -/
def Aside (t : Thread Request Op Op.Out PortalResponse) : Prop :=
  t.rest = AuthPoint.lookup.program t.tag ∨ ∃ r, t.rest = .done r

theorem Aside.deals {t : Thread Request Op Op.Out PortalResponse} (h : Aside t) {pt : AuthPoint}
    (ht : t.rest = pt.program t.tag) : pt.redeeming = none ∧ pt.opening = none := by
  rcases h with h | ⟨r, h⟩ <;> rw [h] at ht <;> cases pt <;> first | exact ⟨rfl, rfl⟩ | cases ht

/-- A request takes its turn at each of its operations while the others stand aside. -/
theorem takeTurns_of_aside {p : Requests} {i : Nat}
    (h : ∀ j t, p.threads[j]? = some t → j ≠ i → Aside t) : TakeTurns p (.advance i) := by
  intro t ht
  have only {deals : AuthPoint → Option Int} {id : Int} (hnone : ∀ pt, pt.redeeming = none → pt.opening = none →
      deals pt = none) : p.OnlyFrom deals id t.tag.mac := by
    intro y hy pt hpt hd
    obtain ⟨j, hj⟩ := List.getElem?_of_mem hy
    by_cases hij : j = i
    · rw [hij, ht] at hj; cases hj; rfl
    · obtain ⟨hr, ho⟩ := (h j y hj hij).deals hpt
      rw [hnone pt hr ho] at hd; cases hd
  exact ⟨fun _ _ _ _ => only fun _ hr _ => hr, fun _ _ _ _ => only fun _ _ ho => ho⟩

theorem reach_aside {i : Nat} {p p' : Requests} (h : Reach requests TakeTurns p)
    (haside : ∀ j t, p.threads[j]? = some t → j ≠ i → Aside t) (n : Nat)
    (hp : requests.trace p (List.replicate n (.advance i)) = some p') : Reach requests TakeTurns p' := by
  induction n generalizing p with
  | zero => cases hp; exact h
  | succ n ih =>
    obtain ⟨q, hq, hp⟩ := Option.bind_eq_some_iff.1 hp
    refine ih (h.step (takeTurns_of_aside haside) hq) (fun j t ht hj => ?_) hp
    obtain ⟨t', x, -, -, rfl⟩ := Pool.advance_some hq
    exact haside j t (by rwa [List.getElem?_set_ne (Ne.symm hj)] at ht) hj

def Requests.opening : Requests := ⟨.opening, []⟩

theorem idle_opening : Requests.opening.Idle := ⟨rfl, by decide, fun _ _ _ _ hs => by cases hs.1⟩

def Request.first : Request := ⟨"AAAA", "02:00:00:00:00:01", "10.0.0.2"⟩

/-- The same code from a second device. -/
def Request.second : Request := ⟨"AAAA", "02:00:00:00:00:02", "10.0.0.3"⟩

/-- Both devices post the code and the first one redeems it to the end. -/
def firstServed : Requests :=
  (requests.trace .opening ([.post .first, .post .second] ++ List.replicate 5 (.advance 0))).getD .opening

/-- Then the second device looks the code up and takes the session over. -/
theorem onePerToken_inTurn : ∃ p, requests.trace firstServed (List.replicate 7 (.advance 1)) = some p ∧
    (p.shared.db.tables.session.map fun s => (s.macAddress, s.status)) =
      [(Request.first.mac, .disconnected), (Request.second.mac, .active)] ∧ p.shared.db.tables.OnePerToken := by
  have anyTime (p : Requests) (req : Request) : TakeTurns p (.post req) := trivial
  have posted := ((Reach.start (M := requests) idle_opening).step (anyTime _ .first) rfl).step (anyTime _ .second) rfl
  have served : Reach requests TakeTurns firstServed := by
    refine reach_aside (i := 0) posted (fun j t ht hj => ?_) 5 rfl
    match j, ht with
    | 0, _ => exact absurd rfl hj
    | 1, ht => cases ht; exact .inl rfl
  refine ⟨_, rfl, by decide, onePerToken_of_takeTurns (reach_aside (i := 1) served (fun j t ht hj => ?_) 7 rfl)⟩
  match j, ht with
  | 0, ht => cases ht; exact .inr ⟨_, rfl⟩
  | 1, _ => exact absurd rfl hj

/-- Both devices post the code, both look it up, then both redeem it. -/
def bothRedeem : List PortalEvent :=
  [.post .first, .post .second, .advance 0, .advance 1] ++ List.replicate 4 (.advance 0) ++
    List.replicate 4 (.advance 1)

/-- The one token then has two active sessions. -/
theorem bothRedeem_two_active : ¬ ∀ p, Reach requests Free p → p.shared.db.tables.OnePerToken :=
  Machine.refute (M := requests) bothRedeem idle_opening (by decide) (by decide)

end Didicafe
