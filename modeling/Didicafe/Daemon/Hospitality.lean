/-
A guest with an unused code is let in. Whatever other guests enter, admins do and the daemon does by itself meanwhile,
with their operations in any order and any of them failing: when nobody else enters the guest's code, uses its device or
ends what is the guest's, then the request of the guest ends with its session and its way through the firewall.
-/
import Didicafe.Daemon.Purchases
import Didicafe.Lib.Company
import Didicafe.Store.History

namespace Didicafe

open Effect Runs

/-- A guest: its code and the id of that token, its device, and a time before which nothing that it buys is over. -/
structure Guest where
  code : String
  tokenId : Int
  mac : String
  ip : String
  deadline : Int

/-- The address pair of the guest. -/
def Guest.pair (g : Guest) : String × String := (g.mac, g.ip)

/-- Between two moments that chrono can show. -/
theorem ClockOk.between {a b now : Int} (ha : ClockOk a) (hb : ClockOk b) (hle : a ≤ now) (hle' : now ≤ b) :
    ClockOk now := by
  have hlo := Calendar.year_mono (show a / nanosPerSec / 86400 ≤ now / nanosPerSec / 86400 from
    Int.ediv_le_ediv (by decide) (Int.ediv_le_ediv (by decide) hle))
  have hhi := Calendar.year_mono (show now / nanosPerSec / 86400 ≤ b / nanosPerSec / 86400 from
    Int.ediv_le_ediv (by decide) (Int.ediv_le_ediv (by decide) hle'))
  exact ⟨⟨ha.inRange.1.trans hlo, hhi.trans hb.inRange.2⟩, hhi.trans hb.year⟩

namespace Guest

variable {g : Guest} {w w' : World}

/-! ## What the guest can go by -/

/-- What goes on holding, whoever does something. -/
structure Expected (g : Guest) (w : World) : Prop where
  token : ∃ r ∈ w.db.tables.token, r.code = g.code ∧ r.id = g.tokenId ∧ (r.status = .unused ∨ r.status = .active)
  alone : ∀ s, w.db.tables.Active s → s.macAddress = g.mac → s.tokenId = g.tokenId
  later : ∀ s, w.db.tables.Active s → s.tokenId = g.tokenId → ∃ e, s.expiry = some e ∧ g.deadline + nanosPerSec ≤ e
  plans : PlansSound w.db.tables
  inTime : w.now < g.deadline

/-- What the others leave alone. -/
structure Spared (g : Guest) (w w' : World) : Prop where
  token : ∀ r ∈ w.db.tables.token, r.id = g.tokenId → r ∈ w'.db.tables.token
  session : ∀ s, w.db.tables.Active s → s.tokenId = g.tokenId → s.macAddress = g.mac → w'.db.tables.Active s
  element : w'.set g.pair = w.set g.pair
  now : w.now ≤ w'.now

theorem Spared.refl (g : Guest) (w : World) : g.Spared w w := ⟨fun _ h _ => h, fun _ h _ _ => h, rfl, le_rfl⟩

theorem Spared.trans {w'' : World} (h : g.Spared w w') (h' : g.Spared w' w'') : g.Spared w w'' :=
  ⟨fun r hr hid => h'.token r (h.token r hr hid) hid, fun s hs hid hm => h'.session s (h.session s hs hid hm) hid hm,
    h'.element.trans h.element, h.now.trans h'.now⟩

/-- What the others may do in a state. -/
def Lets (g : Guest) (w : World) : Op → Prop
  | .nft (.addElement mac _ _) | .nft (.deleteElement mac _) => mac ≠ g.mac
  | .sql (.createPlan _ durationMinutes priceAriary) | .sql (.updatePlan _ _ durationMinutes priceAriary _) =>
    PlanInput durationMinutes priceAriary
  | .sql (.createSession tokenId mac _ _) => tokenId ≠ g.tokenId ∧ mac ≠ g.mac
  | .sql (.redeemToken id _) | .sql (.expireToken id) | .sql (.revokeToken id) => id ≠ g.tokenId
  | .sql (.expireSession id) | .sql (.disconnectSession id) =>
    ∀ s ∈ w.db.tables.session, s.id = id → s.tokenId ≠ g.tokenId
  | _ => True

theorem Lets.writesSound {op : Op} (h : g.Lets w op) : op.WritesSound := by
  rcases op with _ | cmd | q
  · trivial
  · trivial
  · cases q <;> first | exact h | trivial

/-- The row of the guest's token. -/
theorem Expected.status (h : g.Expected w) {r : TokenRow} (hr : r ∈ w.db.tables.token) (hid : r.id = g.tokenId) :
    r.code = g.code ∧ (r.status = .unused ∨ r.status = .active) := by
  obtain ⟨r', hr', hcode, hid', hst⟩ := h.token
  rw [Table.eq_of_key w.db.schema.tokenId hr hr' (hid.trans hid'.symm)]
  exact ⟨hcode, hst⟩

/-- The statements of the others leave the row of the token. -/
theorem Lets.token {q : Sql} (h : g.Lets w (.sql q)) (hw : g.Expected w) :
    ∀ r ∈ w.db.tables.token, r.id = g.tokenId → r ∈ (q.run w.now w.db.tables).2.token := by
  intro r hr hid
  have update {p : TokenRow → Bool} {f : TokenRow → TokenRow} (hp : p r = false) :
      r ∈ Table.updateWhere p f w.db.tables.token := Table.mem_updateWhere.2 (.inr ⟨hr, hp⟩)
  cases q with
  | redeemToken id | expireToken id =>
    exact update (by simpa using fun he : r.id = id => h (he.symm.trans hid))
  | revokeToken id => exact update (by simp [show r.id ≠ id from fun he => h (he.symm.trans hid)])
  | deleteOrphanTokens =>
    refine Table.mem_deleteWhere.2 ⟨hr, ?_⟩
    rcases (hw.status hr hid).2 with hst | hst <;> simp [Tables.isOrphan, hst]
  | createToken code name planId =>
    simp only [Sql.run, Tables.createToken]
    split
    · exact hr
    · split
      · exact List.mem_append_left _ hr
      · exact hr
  | createSession tokenId mac ip expiresAt =>
    show r ∈ (w.db.tables.createSession w.now tokenId mac ip expiresAt).2.token
    rw [Tables.token_createSession]
    exact hr
  | _ => exact hr

/-- They open sessions for other tokens on other devices, and end those of other tokens. -/
theorem Lets.session {q : Sql} (h : g.Lets w (.sql q)) (s : SessionRow) :
    ((q.run w.now w.db.tables).2.Active s → w.db.tables.Active s ∨ s.tokenId ≠ g.tokenId ∧ s.macAddress ≠ g.mac) ∧
      (w.db.tables.Active s → s.tokenId = g.tokenId → s.macAddress = g.mac →
        (q.run w.now w.db.tables).2.Active s) := by
  have ended {id : Int} {st : SessionStatus} (hst : st ≠ .active)
      (hid : ∀ s ∈ w.db.tables.session, s.id = id → s.tokenId ≠ g.tokenId) :
      ((w.db.tables.setSessionStatus (fun s => s.id == id) st).Active s →
        w.db.tables.Active s ∨ s.tokenId ≠ g.tokenId ∧ s.macAddress ≠ g.mac) ∧
      (w.db.tables.Active s → s.tokenId = g.tokenId → s.macAddress = g.mac →
        (w.db.tables.setSessionStatus (fun s => s.id == id) st).Active s) :=
    ⟨fun hs => .inl ((Tables.active_endSession hst s).1 hs).1, fun hs htok _ =>
      (Tables.active_endSession hst s).2 ⟨hs, fun he => hid s hs.1 he htok⟩⟩
  cases q with
  | expireSession id => exact ended (by decide) h
  | disconnectSession id => exact ended (by decide) h
  | createSession tokenId mac ip expiresAt =>
    cases hr : (w.db.tables.createSession w.now tokenId mac ip expiresAt).1 with
    | ok id =>
      have active := Tables.active_createSession hr s
      refine ⟨fun hs => ?_, fun hs _ hm => active.2 (.inl ⟨hs, fun he => h.2 (he.symm.trans hm)⟩)⟩
      rcases active.1 hs with ⟨hs, -⟩ | rfl
      · exact .inl hs
      · exact .inr h
    | error e =>
      show ((w.db.tables.createSession w.now tokenId mac ip expiresAt).2.Active s → _) ∧ (_ → _ → _ →
        (w.db.tables.createSession w.now tokenId mac ip expiresAt).2.Active s)
      rw [Tables.createSession_error hr]
      exact ⟨.inl, fun hs _ _ => hs⟩
  | deleteEndedSessions =>
    refine ⟨fun hs => .inl ⟨(Table.mem_deleteWhere.1 hs.1).1, hs.2⟩, fun hs _ _ => ⟨?_, hs.2⟩⟩
    have hst : s.status = .active := by simpa [SessionRow.isActive] using hs.2
    exact Table.mem_deleteWhere.2 ⟨hs.1, by simp [Tables.isPurged, hst]⟩
  | createToken code name planId =>
    simp only [Sql.run, Tables.createToken]
    split
    · exact ⟨.inl, fun hs _ _ => hs⟩
    · split <;> exact ⟨.inl, fun hs _ _ => hs⟩
  | _ => exact ⟨.inl, fun hs _ _ => hs⟩

/-- What the others do keeps what the guest can go by, and leaves alone what is the guest's. -/
theorem Lets.exec {op : Op} (h : g.Lets w op) (hw : g.Expected w) (fault : Option Err) :
    g.Expected (World.exec fault op w).2 ∧ g.Spared w (World.exec fault op w).2 := by
  cases fault with
  | some e =>
    rw [World.exec_some]
    exact ⟨hw, .refl g w⟩
  | none =>
    cases op with
    | utcNow => exact ⟨hw, .refl g w⟩
    | nft cmd =>
      refine ⟨⟨hw.token, hw.alone, hw.later, hw.plans, hw.inTime⟩, ⟨fun _ hr _ => hr, fun _ hs _ _ => hs, ?_, le_rfl⟩⟩
      cases cmd with
      | addElement mac ip timeoutSecs =>
        exact TimedSet.insert_of_ne w.set (fun he => h (congrArg Prod.fst he).symm) _
      | deleteElement mac ip => exact TimedSet.erase_of_ne w.set fun he => h (congrArg Prod.fst he).symm
    | sql q =>
      have token := h.token hw
      refine ⟨⟨?_, fun s hs hm => ?_, fun s hs htok => ?_, hw.plans.run w.now h.writesSound, hw.inTime⟩,
        ⟨token, fun s => (h.session s).2, rfl, le_rfl⟩⟩
      · obtain ⟨r, hr, hcode, hid, hst⟩ := hw.token
        exact ⟨r, token r hr hid, hcode, hid, hst⟩
      · rcases (h.session s).1 hs with hs | ⟨-, hne⟩
        · exact hw.alone s hs hm
        · exact absurd hm hne
      · rcases (h.session s).1 hs with hs | ⟨hne, -⟩
        · exact hw.later s hs htok
        · exact absurd htok hne

/-! ## The guest and the others -/

/-- What the guest's own request does. -/
def Does (g : Guest) : Op → Prop
  | .utcNow | .sql (.getTokenByCode _) => True
  | .nft (.addElement mac ip _) => (mac, ip) = g.pair
  | .sql (.createSession tokenId mac ip expiresAt) => tokenId = g.tokenId ∧ (mac, ip) = g.pair ∧
    ∃ e, parseTimestamp expiresAt = some e ∧ g.deadline + nanosPerSec ≤ e * nanosPerSec
  | .sql (.redeemToken id _) => id = g.tokenId
  | _ => False

theorem Does.expected {op : Op} (h : g.Does op) (hw : g.Expected w) : g.Expected (World.exec none op w).2 := by
  cases op with
  | utcNow => exact hw
  | nft cmd => exact ⟨hw.token, hw.alone, hw.later, hw.plans, hw.inTime⟩
  | sql q =>
    cases q with
    | getTokenByCode => exact hw
    | createSession tokenId mac ip expiresAt =>
      obtain ⟨rfl, hpair, e, he, hlater⟩ := h
      have htoken : (w.db.tables.createSession w.now g.tokenId mac ip expiresAt).2.token = w.db.tables.token :=
        Tables.token_createSession
      obtain ⟨r, hr, hcode, hid, hst⟩ := hw.token
      have hok := Tables.createSession_of_token w.now mac ip expiresAt ⟨r, hr, hid⟩
      have active := Tables.active_createSession hok
      refine ⟨⟨r, htoken ▸ hr, hcode, hid, hst⟩, fun s hs hm => ?_, fun s hs htok => ?_,
        hw.plans.run (q := .createSession g.tokenId mac ip expiresAt) w.now trivial, hw.inTime⟩
      · rcases (active s).1 hs with ⟨hs, -⟩ | rfl
        · exact hw.alone s hs hm
        · rfl
      · rcases (active s).1 hs with ⟨hs, -⟩ | rfl
        · exact hw.later s hs htok
        · exact ⟨_, by unfold SessionRow.expiry Tables.newSession; rw [he]; rfl, hlater⟩
    | redeemToken id expiresAt =>
      obtain rfl : id = g.tokenId := h
      obtain ⟨r, hr, hcode, hid, -⟩ := hw.token
      refine ⟨?_, hw.alone, hw.later, hw.plans, hw.inTime⟩
      exact ⟨_, Table.mem_updateWhere.2 (.inl ⟨r, hr, by simpa using hid, rfl⟩), hcode, hid, .inr rfl⟩
    | _ => exact h.elim

/-- The rules of the others: the guest's request goes on being expected, and ids keep their meaning. -/
def others (g : Guest) : Rules Op Op.Out World (Option Err) where
  rely w w' := (g.Expected w → g.Expected w') ∧ w.db.tables.History w'.db.tables
  allowed := g.Lets
  handler := World.exec
  refl _ := ⟨fun h => h, .refl _⟩
  trans h h' := ⟨fun hw => h'.1 (h.1 hw), h.2.trans h'.2⟩
  keeps fault op w hok := ⟨fun hw => (hok.exec hw fault).1, w.history_exec fault op⟩

/-- What the guest's request goes by. No operation of its own fails. -/
def stand (g : Guest) : Stand Op Op.Out World Unit where
  rely w w' := g.Expected w → g.Expected w' ∧ g.Spared w w'
  performs _ := g.Does
  handler _ := World.exec none
  refl w h := ⟨h, .refl g w⟩
  trans h h' hw := ⟨(h' (h hw).1).1, (h hw).2.trans (h' (h hw).1).2⟩

def company (g : Guest) : Company Op Op.Out World Unit (Option Err) where
  one := g.stand
  others := g.others
  one_keeps _ op w hok := ⟨hok.expected, w.history_exec none op⟩
  others_keep fault _ _ hok hw := hok.exec hw fault

/-! ## The guest's request -/

/-- The guest has what it came for. -/
structure LetIn (g : Guest) (w : World) : Prop where
  element : ∃ e, w.set g.pair = some e ∧ g.deadline ≤ e
  session : ∃ s, w.db.tables.Active s ∧ s.tokenId = g.tokenId ∧ s.pair = g.pair
  token : ∃ r ∈ w.db.tables.token, r.code = g.code ∧ r.id = g.tokenId ∧ r.status = .active

theorem LetIn.later (h : g.LetIn w) (hs : g.Spared w w') : g.LetIn w' := by
  obtain ⟨e, he, hle⟩ := h.element
  obtain ⟨s, hact, htok, hpair⟩ := h.session
  obtain ⟨r, hr, hcode, hid, hst⟩ := h.token
  exact ⟨⟨e, hs.element.trans he, hle⟩, ⟨s, hs.session s hact htok (congrArg Prod.fst hpair), htok, hpair⟩,
    ⟨r, hs.token r hr hid, hcode, hid, hst⟩⟩

variable {α β : Type} {Q : Except Err β → World → Prop}

/-- A statement of the request that cannot be refused. -/
theorem ends_sql {q : Sql} {f : q.Out → App β} (h : ∀ w', g.stand.rely w w' → g.Does (.sql q) ∧
    ∃ a, (q.run w'.now w'.db.tables).1 = .ok a ∧
      g.stand.Ends Q (f a).run { w' with db := (w'.db.exec w'.now q).2 }) :
    g.stand.Ends Q (sql q >>= f).run w := by
  intro w' hr
  obtain ⟨hdoes, a, ha, hends⟩ := h w' hr
  refine ⟨hdoes, fun _ => ?_⟩
  show g.stand.Ends Q (Prog.bind (.done (q.run w'.now w'.db.tables).1) _) _
  rw [ha]
  exact hends

/-- Reading the clock. -/
theorem ends_utcNow {Q : α → World → Prop} {p : Prog Op Op.Out α}
    (h : ∀ w', g.stand.rely w w' → ∃ next, p = .call .utcNow next ∧ g.stand.Ends Q (next w'.now) w') :
    g.stand.Ends Q p w := by
  obtain ⟨next, rfl, -⟩ := h w (g.stand.refl w)
  intro w' hr
  obtain ⟨next', hnext, hends⟩ := h w' hr
  cases hnext
  exact ⟨trivial, fun _ => hends⟩

section Grant

variable {timeoutSecs : Nat} {expiresAt : String} {e : Int}

/-- The last statement. -/
theorem ends_redeemToken (hw : g.Expected w) (helement : ∃ e, w.set g.pair = some e ∧ g.deadline ≤ e)
    (hsession : ∃ s, w.db.tables.Active s ∧ s.tokenId = g.tokenId ∧ s.pair = g.pair) (sessionId : Int) :
    g.stand.Ends (fun r w => (∃ id, r = .ok id) ∧ g.Expected w ∧ g.LetIn w)
      (do sql (.redeemToken g.tokenId expiresAt); return sessionId : App Int).run w := by
  refine ends_sql fun w₁ h₁ => ⟨rfl, (), rfl, fun w₂ h₂ => ⟨⟨sessionId, rfl⟩, ?_⟩⟩
  obtain ⟨hw₁, hs₁⟩ := h₁ hw
  obtain ⟨e, he, hle⟩ := helement
  obtain ⟨s, hact, htok, hpair⟩ := hsession
  obtain ⟨r, hr, hcode, hid, -⟩ := hw₁.token
  have now : g.LetIn { w₁ with db := (w₁.db.exec w₁.now (.redeemToken g.tokenId expiresAt)).2 } :=
    ⟨⟨e, hs₁.element.trans he, hle⟩, ⟨s, hs₁.session s hact htok (congrArg Prod.fst hpair), htok, hpair⟩,
      ⟨_, Table.mem_updateWhere.2 (.inl ⟨r, hr, by simpa using hid, rfl⟩), hcode, hid, rfl⟩⟩
  have hdoes : g.Does (.sql (.redeemToken g.tokenId expiresAt)) := rfl
  obtain ⟨hw₂, hs₂⟩ := h₂ (hdoes.expected hw₁)
  exact ⟨hw₂, now.later hs₂⟩

theorem ends_grant (hw : g.Expected w) (hmac : validateMac g.mac = .ok ())
    (htimeout : g.deadline ≤ w.now + timeoutSecs * nanosPerSec) (he : parseTimestamp expiresAt = some e)
    (hlater : g.deadline + nanosPerSec ≤ e * nanosPerSec) :
    g.stand.Ends (fun r w => (∃ id, r = .ok id) ∧ g.Expected w ∧ g.LetIn w)
      (grant g.tokenId g.mac g.ip timeoutSecs expiresAt).run w := by
  unfold grant authorizeClient
  rw [hmac]
  intro w₁ h₁
  refine ⟨rfl, fun _ => ?_⟩
  obtain ⟨hw₁, hs₁⟩ := h₁ hw
  have hadds : g.Does (.nft (.addElement g.mac g.ip timeoutSecs)) := rfl
  refine ends_sql (w := (World.exec none (.nft (.addElement g.mac g.ip timeoutSecs)) w₁).2) fun w₂ h₂ => ?_
  obtain ⟨hw₂, hs₂⟩ := h₂ (hadds.expected hw₁)
  obtain ⟨r, hr, -, hid, -⟩ := hw₂.token
  have hok := Tables.createSession_of_token w₂.now g.mac g.ip expiresAt ⟨r, hr, hid⟩
  have hdoes : g.Does (.sql (.createSession g.tokenId g.mac g.ip expiresAt)) := ⟨rfl, rfl, e, he, hlater⟩
  refine ⟨hdoes, _, hok, ends_redeemToken (hdoes.expected hw₂) ⟨w₁.now + timeoutSecs * nanosPerSec, ?_, ?_⟩ ?_ _⟩
  · exact hs₂.element.trans (TimedSet.insert_self ..)
  · exact htimeout.trans (Int.add_le_add_right hs₁.now _)
  · exact ⟨_, (Tables.active_createSession hok _).2 (.inr rfl), rfl, rfl⟩

end Grant

/-- The guest has not used its code. -/
structure Waiting (g : Guest) (w : World) : Prop where
  expected : g.Expected w
  unused : ∃ r ∈ w.db.tables.token, r.id = g.tokenId ∧ r.status = .unused

/-- When the guest comes, whatever it buys lasts longer than until its deadline. -/
structure InTime (g : Guest) (now : Int) : Prop where
  clock : ClockOk now
  clockThen : ClockOk g.deadline
  deadline : g.deadline ≤ now + 58 * nanosPerSec

theorem InTime.later {now now' : Int} (h : g.InTime now) (hle : now ≤ now') (hlt : now' < g.deadline) :
    g.InTime now' :=
  ⟨h.clock.between h.clockThen hle (Int.le_of_lt hlt), h.clockThen, h.deadline.trans (Int.add_le_add_right hle _)⟩

theorem ends_createSession (hw : g.Expected w) (hmac : validateMac g.mac = .ok ()) (htime : g.InTime w.now)
    {minutes price : Int} (hplan : PlanInput minutes price) :
    g.stand.Ends (fun r w => (∃ id, r = .ok id) ∧ g.Expected w ∧ g.LetIn w)
      (createSession g.tokenId minutes g.mac g.ip).run w := by
  refine ends_utcNow fun w₁ h₁ => ?_
  obtain ⟨hw₁, hs₁⟩ := h₁ hw
  have htime := htime.later hs₁.now hw₁.inTime
  have buys := samePurchase_of_input hplan htime.clock g.tokenId g.mac g.ip
  obtain ⟨next, hrun, hnext⟩ := buys.grants
  have hmin := hplan.positive
  have hdeadline := htime.deadline
  have hend := buys.ltExpires
  have htimeout := buys.timeout
  refine ⟨next, hrun, hnext ▸ ends_grant hw₁ hmac ?_ buys.readBack ?_⟩
  · unfold nanosPerSec at hdeadline ⊢
    omega
  · unfold nanosPerSec at hdeadline hend ⊢
    omega

theorem Waiting.ends (h : g.Waiting w) (hmac : validateMac g.mac = .ok ()) (htime : g.InTime w.now) :
    g.stand.Ends (fun r w => r = .success ∧ g.LetIn w) (portalAuth g.code g.mac g.ip) w := by
  intro w₁ h₁
  refine ⟨trivial, fun _ => ?_⟩
  obtain ⟨hw₁, hs₁⟩ := h₁ h.expected
  obtain ⟨r, hr, hid, hst⟩ := h.unused
  have hr₁ := hs₁.token r hr hid
  obtain ⟨k, hk, hrow⟩ := Tables.tokenByCode_of_mem w₁.db.schema hr₁
  rw [(hw₁.status hr₁ hid).1] at hk
  obtain ⟨p, hp, hjoin⟩ : ∃ p ∈ w₁.db.tables.plan, k.durationMinutes = p.durationMinutes := by
    obtain ⟨r', -, hk⟩ := Option.bind_eq_some_iff.1 hk
    obtain ⟨p, hp, rfl⟩ := Option.map_eq_some_iff.1 hk
    exact ⟨p, List.mem_of_find?_eq_some hp, rfl⟩
  have hunused : TokenLookup.ofToken (w₁.db.tables.tokenByCode g.code) = .unused k := by
    rw [hk]
    have hst' : k.status = .unused := by rw [hrow]; exact hst
    simp only [TokenLookup.ofToken, hst']
  have htok : k.id = g.tokenId := by rw [hrow]; exact hid
  show g.stand.Ends _ (Prog.bind (.done (Except.ok (TokenLookup.ofToken (w₁.db.tables.tokenByCode g.code)))) _) w₁
  rw [hunused]
  show g.stand.Ends _ ((createSession k.id k.durationMinutes g.mac g.ip).run >>= _) w₁
  rw [htok, hjoin]
  refine (ends_createSession hw₁ hmac (htime.later hs₁.now hw₁.inTime) (hw₁.plans p hp)).bind fun r w₂ h₂ => ?_
  obtain ⟨⟨id, rfl⟩, hw₂, hin⟩ := h₂
  exact fun w₃ h₃ => ⟨rfl, hin.later (h₃ hw₂).2⟩

/-! ## The others -/

open Rules

variable {c : CafeConfig} {x : Prog Op Op.Out α}

/-- What the others may do in every state. -/
theorem heeds_of_lets (h : x.Uses fun op => ∀ w, g.Lets w op) : g.others.Heeds x w := h.heeds fun w _ hop => hop w

theorem heeds_sql (q : Sql) (h : ∀ w', g.others.rely w w' → g.Lets w' (.sql q)) : g.others.Heeds (sql q).run w :=
  heeds_perform h

/-- What leaves the guests alone, as long as plans are written with checked input. -/
def Calm (op : Op) : Prop := ∀ (g : Guest) (w : World), op.WritesSound → g.Lets w op

/-- Such a program, when it does write plans with checked input. -/
theorem heeds_of_sound (hw : g.Expected w) (hs : sound.Heeds x w) (hx : x.Uses Calm) : g.others.Heeds x w := by
  induction x generalizing w with
  | done => trivial
  | call op next ih =>
    intro w' hr
    obtain ⟨hok, hnext⟩ := hs w' fun _ => (hr.1 hw).plans
    have hlets := hx.1 g w' hok
    exact ⟨hlets, fun fault => ih _ (hlets.exec (hr.1 hw) fault).1 (hnext fault) (hx.2 _)⟩

/-- What is written to the plans, the audit log and the settings. -/
theorem calm_of_within {ε : Type} {y : Fallible ε Op Op.Out α} (h : Within [.plan, .auditLog, .setting] y) :
    Fallible.Uses Calm y := by
  refine Prog.Uses.mono h fun op hop g w hs => ?_
  rcases op with _ | cmd | q
  · trivial
  · exact absurd hop (by simp [Op.within, Op.part])
  · cases q <;> first | exact hs | trivial

theorem calm_manageSubmit (tc : TokenConfig) (adminUser csrf : String) (form : ManageForm) (draws : Nat → Draws tc) :
    Fallible.Uses Calm (manageSubmit tc adminUser csrf form draws) := by
  have page (message : Option I18nMessage) : Fallible.Uses Calm (do
      let data ← loadManageData "current" 1
      return (data, message) : Api (ManageData × Option I18nMessage)) :=
    calm_of_within (.bind (.loadManageData "current" 1) fun _ => trivial)
  have generates {planId : Int} {name : Option String} :
      Fallible.Uses Calm (manageGenerateTokens tc adminUser planId form.count name draws) :=
    uses_manageGenerateTokens (fun _ _ _ => trivial) (fun _ _ _ _ _ => trivial) (fun _ _ _ _ => trivial) ..
  unfold manageSubmit
  split
  · trivial
  cases form.planName with
  | some planName =>
    exact Fallible.Uses.bind (calm_of_within ((Within.manageCreatePlan ..).mono (by simp))) fun _ => page _
  | none =>
    cases form.planId with
    | some planId => exact Fallible.Uses.bind generates fun _ => page _
    | none => exact Fallible.Uses.bind (x := pure none) trivial fun _ => page _

end Guest

/-- An admin's action that takes nothing from the guest. -/
def AdminAction.Spares {tc : TokenConfig} (g : Guest) (w : World) : AdminAction tc → Prop
  | .revokeToken id => id ≠ g.tokenId
  | .disconnectSession id => ∃ s ∈ w.db.tables.session, s.id = id ∧ s.tokenId ≠ g.tokenId ∧ s.macAddress ≠ g.mac
  | _ => True

/-- A request or a job that takes nothing from the guest: with other codes, on other devices. -/
def HouseCall.Spares {c : CafeConfig} (g : Guest) (w : World) : HouseCall c → Prop
  | .portalAuth code mac _ => code ≠ g.code ∧ mac ≠ g.mac
  | .admin (.login _ _ client) => ∀ x ∈ client, x.1 ≠ g.mac
  | .admin (.action _ a) => a.Spares g w
  | .cleanup | .purge _ => True
  | .restore => False

namespace Guest

open Rules

variable {g : Guest} {w : World} {c : CafeConfig}

theorem heeds_disconnect {id : Int}
    (h : ∃ s ∈ w.db.tables.session, s.id = id ∧ s.tokenId ≠ g.tokenId ∧ s.macAddress ≠ g.mac) :
    g.others.Heeds (disconnect id).run w := by
  obtain ⟨s, hs, rfl, htok, hmac⟩ := h
  have same {w' : World} (hr : g.others.rely w w') {s' : SessionRow} (hs' : s' ∈ w'.db.tables.session)
      (hid : s'.id = s.id) : s'.tokenId = s.tokenId ∧ s'.macAddress = s.macAddress := by
    have aged := hr.2.session.same w.db.schema.sessionId w.db.schema.sessionSeq hs hs' hid
    rw [aged.row]
    exact ⟨rfl, rfl⟩
  intro w₁ h₁
  refine ⟨trivial, fun fault => ?_⟩
  cases fault with
  | some e => trivial
  | none =>
    show g.others.Heeds (Prog.bind (.done (Except.ok (w₁.db.tables.sessionById s.id))) _) w₁
    cases hk : w₁.db.tables.sessionById s.id with
    | none => trivial
    | some k =>
      obtain ⟨hmem, hid⟩ := Tables.sessionById_some hk
      have hkmac : k.macAddress ≠ g.mac := (same h₁ hmem hid).2 ▸ hmac
      refine Heeds.bind_run (x := deauthorizeClient k.macAddress k.ipAddress)
        (heeds_of_lets (uses_deauthorize fun _ => hkmac)) fun _ w₂ h₂ => ?_
      refine heeds_sql (.disconnectSession s.id) fun w₃ h₃ s' hs' hid' => ?_
      rw [(same (g.others.trans (g.others.trans h₁ h₂) h₃) hs' hid').1]
      exact htok

/-- The actions of an admin. -/
theorem heeds_action (hw : g.Expected w) {a : AdminAction c.token} (h : a.Spares g w) (csrf : String) :
    g.others.Heeds (a.handler c.adminUsername csrf).run w := by
  have calm (hx : Fallible.Uses Calm (a.handler c.adminUsername csrf)) := heeds_of_sound hw (a.sound hw.plans _ _) hx
  have within (hparts : a.footprint ⊆ [.plan, .auditLog, .setting]) :=
    calm (calm_of_within ((Within.handler c.adminUsername csrf a).mono hparts))
  cases a with
  | listPlans | listTokens | listSessions | stats | weeklyStats | dashboard | managePage =>
    exact within (by simp [AdminAction.footprint])
  | createPlan | updatePlan | togglePlanActive | settingsSubmit => exact within (by simp [AdminAction.footprint])
  | generateTokens name planId count draws =>
    refine calm (Fallible.Uses.bind (uses_apiGenerateTokens ?_ ?_ ..) fun _ => trivial)
    · exact fun _ _ _ => trivial
    · exact fun _ _ _ _ => trivial
  | manageSubmit form draws => exact calm (Fallible.Uses.bind (calm_manageSubmit ..) fun _ => trivial)
  | revokeToken id =>
    refine heeds_of_lets (uses_apiRevokeToken ?_ ?_ ?_)
    · exact fun _ => trivial
    · exact fun _ => h
    · exact fun _ => trivial
  | disconnectSession id =>
    show g.others.Heeds (apiDisconnectSession c.adminUsername id).run w
    refine Heeds.bind_run (x := ExceptT.mk _) ((heeds_disconnect h).bind fun _ _ _ => trivial) fun _ w₁ _ => ?_
    exact heeds_of_lets (uses_ignore (uses_sql fun _ => trivial))

theorem heeds_migrateSession (hw : g.Expected w) {tokenId : Int} {mac : String} (htok : tokenId ≠ g.tokenId)
    (hmac : mac ≠ g.mac) (ip : String) : g.others.Heeds (migrateSession tokenId mac ip).run w := by
  intro w₁ h₁
  refine ⟨trivial, fun fault => ?_⟩
  cases fault with
  | some e => trivial
  | none =>
    show g.others.Heeds (Prog.bind (.done (Except.ok (w₁.db.tables.sessionByToken tokenId))) _) w₁
    cases hk : w₁.db.tables.sessionByToken tokenId with
    | none => trivial
    | some old =>
      obtain ⟨hact, hid⟩ := Tables.sessionByToken_some hk
      -- the device of the guest has no session of another token
      have hold : old.macAddress ≠ g.mac := fun hm => htok (hid.symm.trans ((h₁.1 hw).alone _ hact hm))
      intro w₂ h₂
      refine ⟨trivial, fun _ => ?_⟩
      show g.others.Heeds (ExceptT.run (ite (old.remainingAt w₂.now ≤ 0) _ _)) w₂
      split
      · trivial
      refine Heeds.bind_run (x := App.attempt _) ?_ fun _ w₃ h₃ => ?_
      · exact Heeds.lift (heeds_of_lets (uses_deauthorize fun _ => hold))
      refine Heeds.bind_run (heeds_sql (.disconnectSession old.id) fun w₄ h₄ s hs hsid => ?_)
        fun _ w₄ _ => ?_
      · have hist := h₂.2.trans (h₃.2.trans h₄.2)
        rw [(hist.session.same w₁.db.schema.sessionId w₁.db.schema.sessionSeq hact.1 hs hsid).row]
        exact fun he => htok (hid.symm.trans he)
      refine heeds_of_lets (Fallible.Uses.bind (uses_authorize fun _ => hmac) fun _ => uses_sql fun _ => ⟨htok, hmac⟩)

/-- Another guest, with another code. -/
theorem heeds_portalAuth (hw : g.Expected w) {code mac : String} (hcode : code ≠ g.code) (hmac : mac ≠ g.mac)
    (ip : String) : g.others.Heeds (portalAuth code mac ip) w := by
  intro w₁ h₁
  refine ⟨trivial, fun fault => ?_⟩
  cases fault with
  | some e => trivial
  | none =>
    have hw₁ := h₁.1 hw
    show g.others.Heeds (Prog.bind (.done (Except.ok (TokenLookup.ofToken (w₁.db.tables.tokenByCode code)))) _) w₁
    cases hk : w₁.db.tables.tokenByCode code with
    | none => trivial
    | some k =>
      obtain ⟨hmem, hkcode⟩ := Tables.tokenByCode_some hk
      -- the token of another code is another token
      have htok : k.id ≠ g.tokenId := fun hid => hcode (hkcode.symm.trans (hw₁.status hmem hid).1)
      cases hst : k.status with
      | unused =>
        have hunused : TokenLookup.ofToken (some k) = .unused k := by simp only [TokenLookup.ofToken, hst]
        rw [hunused]
        show g.others.Heeds ((createSession k.id k.durationMinutes mac ip).run >>= _) w₁
        refine Heeds.bind (heeds_of_lets (uses_createSession ?_ ?_ ?_ ?_ k.durationMinutes)) fun r _ _ => ?_
        · exact fun _ => trivial
        · exact fun _ _ => hmac
        · exact fun _ _ => ⟨htok, hmac⟩
        · exact fun _ _ => htok
        · cases r <;> trivial
      | active =>
        have hactive : TokenLookup.ofToken (some k) = .active k := by simp only [TokenLookup.ofToken, hst]
        rw [hactive]
        show g.others.Heeds ((migrateSession k.id mac ip).run >>= _) w₁
        exact (heeds_migrateSession hw₁ htok hmac ip).bind fun r _ _ => by cases r <;> trivial
      | expired | revoked =>
        have hinvalid : TokenLookup.ofToken (some k) = .invalid := by simp only [TokenLookup.ofToken, hst]
        rw [hinvalid]
        trivial

/-- The cleanup comes upon no session of the guest that it may end. -/
theorem heeds_cleanupPass {grace : Int} (hgrace : 0 ≤ grace) (hw : g.Expected w) :
    g.others.Heeds (cleanupPass grace) w := by
  intro w₁ h₁
  refine ⟨trivial, fun fault => ?_⟩
  cases fault with
  | some e => trivial
  | none =>
    have hw₁ := h₁.1 hw
    refine Heeds.forM (l := w₁.db.tables.sessionActive) fun k hk w₂ h₂ => ?_
    have hact := Tables.mem_sessionActive hk
    intro w₃ h₃
    refine ⟨trivial, fun _ => ?_⟩
    have hw₃ := h₃.1 (h₂.1 hw₁)
    show g.others.Heeds (ite (k.remainingAt w₃.now ≤ -grace) _ _) w₃
    split
    · rename_i hover
      by_cases htok : k.tokenId = g.tokenId
      · -- more than a second is left of it
        obtain ⟨e, he, hle⟩ := hw₁.later _ hact htok
        have hleft := (SessionRow.remainingAt_bounds he w₃.now).1
        have := hw₃.inTime
        unfold nanosPerSec at hleft hle
        omega
      · have hmac : k.macAddress ≠ g.mac := fun hm => htok (hw₁.alone _ hact hm)
        refine Heeds.bind (heeds_of_lets (uses_deauthorize fun _ => hmac)) fun r w₄ h₄ => ?_
        cases r with
        | error e => trivial
        | ok =>
          refine Heeds.bind (heeds_sql (.expireSession k.id) fun w₅ h₅ s hs hid => ?_) fun r w₅ _ => ?_
          · have hist := (h₂.2.trans h₃.2).trans (h₄.2.trans h₅.2)
            rw [(hist.session.same w₁.db.schema.sessionId w₁.db.schema.sessionSeq hact.1 hs hid).row]
            exact htok
          · cases r with
            | error e => trivial
            | ok =>
              exact Heeds.bind (heeds_sql (.expireToken k.tokenId) fun _ _ => htok) fun _ _ _ => trivial
    · trivial

theorem lets_recordLogin {client : Option (String × String)} (h : ∀ x ∈ client, x.1 ≠ g.mac) (username : String)
    (accepted : Bool) :
    Fallible.Uses (fun op => ∀ w, g.Lets w op) (recordLogin username accepted client) := by
  show Fallible.Uses _ (ite _ _ _)
  split
  · refine Fallible.Uses.bind (uses_ignore (uses_sql fun _ => trivial)) fun _ => ?_
    cases client with
    | none => trivial
    | some client => exact Fallible.Uses.bind (uses_ignore (uses_authorize fun _ => h client rfl)) fun _ => trivial
  · exact Fallible.Uses.bind (uses_ignore (uses_sql fun _ => trivial)) fun _ => trivial

theorem heeds_program (hgrace : 0 ≤ c.gracePeriodSeconds) (hw : g.Expected w) {k : HouseCall c} (h : k.Spares g w) :
    g.others.Heeds k.program w := by
  cases k with
  | portalAuth code mac ip => exact (heeds_portalAuth hw h.1 h.2 ip).void
  | cleanup => exact (heeds_cleanupPass hgrace hw).void
  | purge retentionDays =>
    refine (heeds_of_lets (Fallible.Uses.bind (uses_sql ?_) fun _ => Fallible.Uses.bind (uses_sql ?_) fun _ => ?_)).void
    · exact fun _ => trivial
    · exact fun _ => trivial
    · trivial
  | restore => exact h.elim
  | admin r =>
    cases r with
    | action session a =>
      cases session with
      | none => trivial
      | some csrf => exact (heeds_action hw h csrf).void
    | login username accepted client =>
      exact (heeds_of_lets ((lets_recordLogin h username accepted).bind fun _ => Fallible.Uses.pure ())).void

end Guest

/-! ## Runs -/

/-- A step of a run in which thread `n` is the guest's: nothing of its own fails, and the others take nothing from it
before the deadline. -/
def HouseLabel.Spares {c : CafeConfig} (g : Guest) (n : Nat) (s : House c) : HouseLabel c → Prop
  | .start k => k.Spares g s.shared
  | .advance i fault => i = n → fault = none
  | .elapse nanos => s.shared.now + nanos < g.deadline

section Runs

variable {c : CafeConfig} {g : Guest} {n : Nat} {s₀ s s₁ s' : House c} {l : HouseLabel c}

/-- Time passes. -/
theorem Guest.elapse {w : World} {nanos : Nat} (h : w.now + nanos < g.deadline) :
    g.stand.rely w { w with now := w.now + nanos } ∧ g.others.rely w { w with now := w.now + nanos } := by
  have expected (hw : g.Expected w) : g.Expected { w with now := w.now + nanos } :=
    ⟨hw.token, hw.alone, hw.later, hw.plans, h⟩
  exact ⟨fun hw => ⟨expected hw, fun _ hr _ => hr, fun _ hs _ _ => hs, rfl,
    Int.le_add_of_nonneg_right (Int.natCast_nonneg nanos)⟩, expected, .refl _⟩

/-- Before the guest comes: it goes on waiting, and those under way go on sparing it. -/
structure Guest.Awaited (g : Guest) (s : House c) : Prop where
  waiting : g.Waiting s.shared
  threads : ∀ t ∈ s.threads, g.others.Heeds t.rest s.shared

theorem Guest.Waiting.later {w w' : World} (h : g.Waiting w) (hr : g.stand.rely w w') : g.Waiting w' := by
  obtain ⟨hw', hs⟩ := hr h.expected
  obtain ⟨r, hmem, hid, hst⟩ := h.unused
  exact ⟨hw', r, hs.token r hmem hid, hid, hst⟩

theorem Guest.Awaited.step (hgrace : 0 ≤ c.gracePeriodSeconds) (h : g.Awaited s) (hok : l.Spares g n s)
    (hs : (house c).step s l = some s') : g.Awaited s' := by
  cases l with
  | start k =>
    cases hs
    refine ⟨h.waiting, fun t ht => ?_⟩
    rcases List.mem_append.1 ht with ht | ht
    · exact h.threads t ht
    · rw [List.mem_singleton.1 ht]
      exact heeds_program hgrace h.waiting.expected hok
  | advance i fault =>
    obtain ⟨tag, op, next, ht, -, rfl⟩ := Pool.advance_call hs
    obtain ⟨hlets, -⟩ := h.threads _ (List.mem_of_getElem? ht) s.shared (g.others.refl _)
    exact ⟨h.waiting.later fun hw => hlets.exec hw fault, (g.others.heeds_advance h.threads hs).2⟩
  | elapse nanos =>
    cases hs
    have hr := Guest.elapse (g := g) hok
    exact ⟨h.waiting.later hr.1, fun t ht => (h.threads t ht).later hr.2⟩

/-- The guest is at the counter, among others. -/
abbrev Guest.Served (g : Guest) (n : Nat) (s : House c) : Prop :=
  g.Expected s.shared ∧ g.company.Together (fun _ w => g.LetIn w) n s

theorem Guest.Served.step (hgrace : 0 ≤ c.gracePeriodSeconds) (h : g.Served n s) (hok : l.Spares g n s)
    (hs : (house c).step s l = some s') : g.Served n s' := by
  obtain ⟨hw, hall⟩ := h
  cases l with
  | start k =>
    cases hs
    exact ⟨hw, hall.spawn (heeds_program hgrace hw hok)⟩
  | elapse nanos =>
    cases hs
    have hr := Guest.elapse (g := g) hok
    exact ⟨(hr.1 hw).1, hall.other hr.1 hr.2⟩
  | advance i fault =>
    obtain ⟨tag, op, next, ht, -, he⟩ := Pool.advance_call hs
    by_cases hi : i = n
    · obtain rfl : fault = none := hok hi
      subst hi
      obtain ⟨t, ht', hends⟩ := hall.one
      rw [ht] at ht'
      cases ht'
      obtain ⟨hdoes, -⟩ := hends s.shared (g.stand.refl _)
      exact ⟨he ▸ Guest.Does.expected hdoes hw, hall.advance_one (i := ()) hs⟩
    · obtain ⟨hlets, -⟩ := hall.others i _ hi ht s.shared (g.others.refl _)
      exact ⟨he ▸ (hlets.exec hw fault).1, hall.advance_other hi hs⟩

/-- When the request of the guest ends, the guest is let in: its pair is in the firewall set, with an active session
for its token, which is redeemed now. The run up to the guest's coming starts with nothing under way. -/
theorem unused_code_lets_in (hgrace : 0 ≤ c.gracePeriodSeconds) (hidle : ∀ t ∈ s₀.threads, ∃ a, t.rest = .done a)
    (hwaiting : g.Waiting s₀.shared) (hbefore : Path (house c) (HouseLabel.Spares g n) s₀ s)
    (hmac : validateMac g.mac = .ok ()) (htime : g.InTime s.shared.now)
    (hn : s.threads.length = n)
    (hcomes : (house c).step s (.start (.portalAuth g.code g.mac g.ip)) = some s₁)
    (hafter : Path (house c) (HouseLabel.Spares g n) s₁ s')
    {t : Thread (HouseCall c) Op Op.Out Unit} (ht : s'.threads[n]? = some t)
    (hdone : t.rest = .done ()) : g.LetIn s'.shared := by
  have awaited : g.Awaited s := by
    refine hbefore.invariant (I := g.Awaited) (fun _ _ _ h hok hs => h.step hgrace hok hs) ⟨hwaiting, fun t ht => ?_⟩
    obtain ⟨a, ha⟩ := hidle t ht
    rw [ha]
    trivial
  subst hn
  cases hcomes
  have served : g.Served s.threads.length s' := by
    refine hafter.invariant (I := g.Served s.threads.length) (fun _ _ _ h hok hs => h.step hgrace hok hs)
      ⟨awaited.waiting.expected, .start awaited.threads ?_⟩
    exact (awaited.waiting.ends hmac htime).void.mono fun _ _ h => h.choose_spec.2
  exact served.2.ended ht hdone

end Runs

/-- Somebody with the first code. -/
def firstGuest : Guest where
  code := "CAFE-AAAA-AAAA"
  tokenId := 1
  mac := "02:00:00:00:00:01"
  ip := "10.0.0.2"
  deadline := World.opening.now + 58 * nanosPerSec

/-- Another guest has begun to enter the second code. -/
def otherBegins : List (HouseLabel .small) :=
  .start (.portalAuth "CAFE-BBBB-BBBB" "02:00:00:00:00:02" "10.0.0.3") :: performs 2 3

/-- The first guest's request, while the other one gets on and the cleanup fails. -/
def bothGetOn : List (HouseLabel .small) :=
  performs 3 2 ++ .start .cleanup :: .advance 4 (some (.sqlx "database is locked")) :: performs 2 1 ++ performs 3 3

/-- Somebody with the first code waits before anybody buys anything. -/
theorem Guest.waiting_firstToken {g : Guest} {w : World} (htoken : firstToken ∈ w.db.tables.token)
    (hplan : w.db.tables.plan = [firstPlan]) (hsession : w.db.tables.session = []) (hcode : g.code = firstToken.code)
    (hid : g.tokenId = firstToken.id) (hlt : w.now < g.deadline) : g.Waiting w := by
  have active (s : SessionRow) : ¬w.db.tables.Active s := fun hs => by
    have := hs.1
    rw [hsession] at this
    cases this
  refine ⟨⟨⟨firstToken, htoken, hcode.symm, hid.symm, .inl rfl⟩, fun s hs => absurd hs (active s),
    fun s hs => absurd hs (active s), fun p hp => ?_, hlt⟩, ⟨firstToken, htoken, hid.symm, rfl⟩⟩
  rw [hplan] at hp
  rw [List.mem_singleton.1 hp]
  exact ⟨by decide, by decide, by decide⟩

theorem waiting_twoTokens {s : House .small} (h : (house .small).trace newHouse twoTokens = some s) :
    firstGuest.Waiting s.shared := by
  cases h
  exact Guest.waiting_firstToken (List.mem_of_getElem? (i := 0) rfl) rfl rfl rfl rfl (by decide)

theorem unused_code_lets_in_firstGuest : ∃ s₀ s s₁ s', (house .small).trace newHouse twoTokens = some s₀ ∧
    (house .small).trace s₀ otherBegins = some s ∧
      (house .small).step s (.start (.portalAuth "CAFE-AAAA-AAAA" "02:00:00:00:00:01" "10.0.0.2")) = some s₁ ∧
        (house .small).trace s₁ bothGetOn = some s' ∧ firstGuest.LetIn s'.shared := by
  have hperforms {i count : Nat} : ∀ l ∈ performs i count, ∀ s, HouseLabel.Spares firstGuest 3 s l := by
    intro l hl s
    rw [List.eq_of_mem_replicate hl]
    exact fun _ => rfl
  have hbefore : ∀ l ∈ otherBegins, ∀ s, HouseLabel.Spares firstGuest 3 s l :=
    List.forall_mem_cons.2 ⟨fun _ => ⟨by decide, by decide⟩, hperforms⟩
  have hafter : ∀ l ∈ bothGetOn, ∀ s, HouseLabel.Spares firstGuest 3 s l := by
    refine List.forall_mem_append.2 ⟨List.forall_mem_append.2 ⟨hperforms, ?_⟩, hperforms⟩
    exact List.forall_mem_cons.2 ⟨fun _ => trivial, List.forall_mem_cons.2 ⟨fun _ h => absurd h (by decide), hperforms⟩⟩
  refine ⟨_, _, _, _, rfl, rfl, rfl, rfl, ?_⟩
  refine unused_code_lets_in (t := ⟨_, .done ()⟩) (by decide) (fun t ht => ?_) (waiting_twoTokens rfl)
    (Machine.path_trace_of (t := otherBegins) hbefore rfl) (by decide) ⟨⟨by decide, by decide⟩, ⟨by decide, by decide⟩,
    by decide⟩ rfl rfl (Machine.path_trace_of (t := bothGetOn) hafter rfl) rfl rfl
  rcases ht with _ | ⟨_, _ | ⟨_, ht⟩⟩
  · exact ⟨_, rfl⟩
  · exact ⟨_, rfl⟩
  · cases ht

end Didicafe
