/-
Nobody keeps a guest out. A guest who posts the form of the portal page in time, with room for an attempt and an unused
code, is redirected to the success page and has its way through the firewall, whatever others load, post, log in to and
administer meanwhile from other addresses and devices: their requests may be refused, throttled, banned or fail at any
operation, their form tokens and attempts are in the same stores, and the sweeps they set off leave the guest's alone.
-/
import Didicafe.Daemon.Hospitality
import Didicafe.Front.Authority

namespace Didicafe

open Effect Runs

/-- A guest who posts the form, from an address. Its form is accepted until `closes`. -/
structure Visitor where
  addr : IpAddr
  mac : String
  form : AuthForm
  tokenId : Int
  deadline : Int
  closes : Nat

namespace Visitor

variable {c : FrontConfig} {v : Visitor} {s s' : AppState}

/-- The guest in front of the database and the firewall. -/
def guest (c : FrontConfig) (v : Visitor) : Guest :=
  ⟨normalizeCode c.upper v.form.token, v.tokenId, v.mac, v.addr.display, v.deadline⟩

/-- The key of its form token. -/
def key (c : FrontConfig) (v : Visitor) : String := c.lower v.mac

/-! ## What the visitor can go by -/

/-- What goes on holding, whoever does something. -/
structure Expected (c : FrontConfig) (v : Visitor) (s : AppState) : Prop where
  guest : (v.guest c).Expected s.world
  poisoned : s.rateLimiter.poisoned = false
  config : s.rateLimiter.config = c.rateLimit
  clock : s.clock < v.closes
  /-- Until the form closes no ban makes the clock overflow. -/
  bans : ∀ now < v.closes, (checkedAdd now (fromSecs c.rateLimit.banDurationSeconds)).isSome = true

/-- What the others leave alone. -/
structure Spared (c : FrontConfig) (v : Visitor) (s s' : AppState) : Prop where
  guest : (v.guest c).Spared s.world s'.world
  form : ∀ e, s.portalCsrfStore.lookup (v.key c) = some e → v.closes ≤ e.createdAt + csrfTokenTtl →
    s'.portalCsrfStore.lookup (v.key c) = some e
  attempts : (s'.rateLimiter.entry v.addr).length ≤ (s.rateLimiter.entry v.addr).length
  bans : s.rateLimiter.bans.lookup v.addr = none → s'.rateLimiter.bans.lookup v.addr = none

theorem Spared.refl (s : AppState) : v.Spared c s s := ⟨.refl _ _, fun _ h _ => h, le_rfl, fun h => h⟩

theorem Spared.trans {s'' : AppState} (h : v.Spared c s s') (h' : v.Spared c s' s'') : v.Spared c s s'' :=
  ⟨h.guest.trans h'.guest, fun e he hle => h'.form e (h.form e he hle) hle, h'.attempts.trans h.attempts,
    fun hb => h'.bans (h.bans hb)⟩

/-- What the others may do in a state. -/
def Lets (c : FrontConfig) (v : Visitor) (s : AppState) : Access → Prop
  | .world op => (v.guest c).Lets s.world op
  | .limiter .portal (.record now ip) => ip ≠ v.addr ∧ now < v.closes
  | .csrf .portal (.write key _ now) => key ≠ v.key c ∧ now < v.closes
  | .csrf .portal (.set key _) | .csrf .portal (.validate key _) => key ≠ v.key c
  | _ => True

end Visitor

namespace RateLimiter

variable {l : RateLimiter} {now : Nat} {ip ip' : IpAddr}

/-- A recording without an overflow does not panic. -/
theorem record_unpoisoned (hp : l.poisoned = false)
    (hadd : (checkedAdd now (fromSecs l.config.banDurationSeconds)).isSome = true) (ip : IpAddr) :
    (l.record now ip).2.poisoned = false ∧ (l.record now ip).2.config = l.config := by
  obtain ⟨banUntil, hban⟩ := Option.isSome_iff_exists.1 hadd
  unfold record
  rw [if_neg (by simp [hp])]
  simp only [hban]
  split
  · exact ⟨hp, rfl⟩
  · split <;> exact ⟨hp, rfl⟩

/-- A recording leaves the other addresses alone, but for what the sweep drops. -/
theorem record_other (hp : l.poisoned = false)
    (hadd : (checkedAdd now (fromSecs l.config.banDurationSeconds)).isSome = true) (hne : ip' ≠ ip) :
    ((l.record now ip).2.entry ip').length ≤ (l.entry ip').length ∧
      (l.record now ip).2.bans.lookup ip' = l.bans.lookup ip' := by
  have entry (ts : List Nat) : ((l.put now ip ts).entry ip').length ≤ (l.entry ip').length := by
    rw [entry_put, if_neg hne]
    rcases l.swept_cases now ip' with hs | ⟨-, hs⟩
    · rw [hs]
    · rw [hs]
      exact List.length_filter_le _ _
  obtain ⟨banUntil, hban⟩ := Option.isSome_iff_exists.1 hadd
  unfold record
  rw [if_neg (by simp [hp])]
  simp only [hban]
  split
  · refine ⟨entry [], ?_⟩
    simp only [HashMap.lookup_insert_eq, if_neg hne]
  · split
    · exact ⟨entry _, rfl⟩
    · exact ⟨entry _, rfl⟩

/-- The sweep of the bans brings none. -/
theorem sweepBans_none (h : l.bans.lookup ip = none) (now : Nat) : (l.sweepBans now).bans.lookup ip = none := by
  unfold sweepBans
  simp only [HashMap.lookup_retain, h, Option.bind_none]

end RateLimiter

/-- A new token leaves those of the other keys that have not expired. -/
theorem PortalCsrfStore.lookup_put_of_ne {t : PortalCsrfStore} {key key' token : String} {now : Nat} (hne : key' ≠ key)
    {e : CsrfEntry} (he : t.lookup key' = some e) (hlt : now < e.createdAt + csrfTokenTtl) :
    (t.put key token now).lookup key' = some e := by
  unfold PortalCsrfStore.put
  rw [HashMap.lookup_insert_eq, if_neg hne, HashMap.lookup_retain, he, Option.bind_some, if_pos]
  have : 0 < csrfTokenTtl := by decide
  omega

namespace Visitor

variable {c : FrontConfig} {v : Visitor} {s s' : AppState}

theorem Expected.congr (hs : v.Expected c s) (hworld : s'.world = s.world) (hlimiter : s'.rateLimiter = s.rateLimiter)
    (hclock : s'.clock = s.clock) : v.Expected c s' :=
  ⟨hworld ▸ hs.guest, hlimiter ▸ hs.poisoned, hlimiter ▸ hs.config, hclock ▸ hs.clock, hs.bans⟩

/-- Neither the world, nor what the portal form uses, nor the clock is touched. -/
theorem Expected.apart (hs : v.Expected c s) (hworld : s'.world = s.world) (hlimiter : s'.rateLimiter = s.rateLimiter)
    (hstore : s'.portalCsrfStore = s.portalCsrfStore) (hclock : s'.clock = s.clock) :
    v.Expected c s' ∧ v.Spared c s s' := by
  refine ⟨hs.congr hworld hlimiter hclock, ?_, ?_, ?_, ?_⟩
  · rw [hworld]
    exact .refl _ _
  · rw [hstore]
    exact fun _ he _ => he
  · rw [hlimiter]
  · rw [hlimiter]
    exact fun hb => hb

/-- What the others do keeps what the visitor can go by, and leaves alone what is the visitor's. -/
theorem Lets.exec {op : Access} (h : v.Lets c s op) (hs : v.Expected c s) (env : Surroundings) :
    v.Expected c (AppState.exec env op s).2 ∧ v.Spared c s (AppState.exec env op s).2 := by
  cases op with
  | world op =>
    obtain ⟨hw, hg⟩ := Guest.Lets.exec h hs.guest (env.fault op)
    exact ⟨⟨hw, hs.poisoned, hs.config, hs.clock, hs.bans⟩, ⟨hg, fun _ he _ => he, le_rfl, fun hb => hb⟩⟩
  | sessions op => cases op <;> exact hs.apart rfl rfl rfl rfl
  | limiter door op =>
    cases door with
    | login => cases op <;> exact hs.apart rfl rfl rfl rfl
    | portal =>
      cases op with
      | now | checkBan => exact hs.apart rfl rfl rfl rfl
      | sweepBans now =>
        exact ⟨⟨hs.guest, hs.poisoned, hs.config, hs.clock, hs.bans⟩,
          ⟨.refl _ _, fun _ he _ => he, le_rfl, fun hb => RateLimiter.sweepBans_none hb now⟩⟩
      | record now ip =>
        have hadd := hs.bans now h.2
        rw [← hs.config] at hadd
        obtain ⟨hp, hconfig⟩ := RateLimiter.record_unpoisoned hs.poisoned hadd ip
        obtain ⟨hattempts, hbans⟩ := RateLimiter.record_other hs.poisoned hadd (Ne.symm h.1)
        exact ⟨⟨hs.guest, hp, hconfig.trans hs.config, hs.clock, hs.bans⟩,
          ⟨.refl _ _, fun _ he _ => he, hattempts, fun hb => hbans.trans hb⟩⟩
  | csrf door op =>
    have keeps {t : PortalCsrfStore} (ht : ∀ e, s.portalCsrfStore.lookup (v.key c) = some e →
        v.closes ≤ e.createdAt + csrfTokenTtl → t.lookup (v.key c) = some e) :
        v.Expected c { s with portalCsrfStore := t } ∧ v.Spared c s { s with portalCsrfStore := t } :=
      ⟨hs.congr rfl rfl rfl, ⟨.refl _ _, ht, le_rfl, fun hb => hb⟩⟩
    cases door with
    | login => cases op <;> exact hs.apart rfl rfl rfl rfl
    | portal =>
      cases op with
      | now | read => exact hs.apart rfl rfl rfl rfl
      | write key token now =>
        exact keeps fun e he hle => PortalCsrfStore.lookup_put_of_ne (Ne.symm h.1) he (Nat.lt_of_lt_of_le h.2 hle)
      | set key token =>
        refine keeps fun e he _ => ?_
        rw [HashMap.lookup_insert_eq, if_neg (Ne.symm h)]
        exact he
      | validate key submitted => exact keeps fun e he _ => (AList.lookup_erase_ne (Ne.symm h)).trans he
  | procNetArp | ipNeigh | arpCommand | verifyPassword => exact hs.apart rfl rfl rfl rfl

/-! ## The visitor and the others -/

/-- What the visitor's own request does. -/
def Does (c : FrontConfig) (v : Visitor) : Access → Prop
  | .world op => (v.guest c).Does op
  | .limiter .portal (.record now _) => now < v.closes
  | .limiter .portal _ | .csrf .portal _ | .procNetArp => True
  | _ => False

theorem Does.expected {op : Access} (h : v.Does c op) (hs : v.Expected c s) {env : Surroundings}
    (henv : ∀ op, env.fault op = none) : v.Expected c (AppState.exec env op s).2 := by
  cases op with
  | world op =>
    have hw := Guest.Does.expected h hs.guest
    rw [← henv op] at hw
    exact ⟨hw, hs.poisoned, hs.config, hs.clock, hs.bans⟩
  | limiter door op =>
    cases door with
    | login => exact h.elim
    | portal =>
      cases op with
      | record now ip =>
        have hadd := hs.bans now h
        rw [← hs.config] at hadd
        obtain ⟨hp, hconfig⟩ := RateLimiter.record_unpoisoned hs.poisoned hadd ip
        exact ⟨hs.guest, hp, hconfig.trans hs.config, hs.clock, hs.bans⟩
      | now | checkBan | sweepBans => exact ⟨hs.guest, hs.poisoned, hs.config, hs.clock, hs.bans⟩
  | csrf door op =>
    cases door with
    | login => exact h.elim
    | portal => cases op <;> exact hs.congr rfl rfl rfl
  | procNetArp => exact hs
  | sessions | ipNeigh | arpCommand | verifyPassword => exact h.elim

theorem AppState.history_exec (env : Surroundings) (op : Access) (s : AppState) :
    s.world.db.tables.History (AppState.exec env op s).2.world.db.tables := by
  cases op with
  | world op => exact s.world.history_exec (env.fault op) op
  | limiter door => cases door <;> exact .refl _
  | csrf door => cases door <;> exact .refl _
  | _ => exact .refl _

end Visitor

/-- One of the neighbour tables has the MAC address for the address. -/
def Surroundings.Names (c : FrontConfig) (env : Surroundings) (ip : IpAddr) (mac : String) : Prop :=
  lookupProcNetArp c.lower env.procNetArp ip.display = some mac ∨
    lookupIpNeigh c.lower (env.ipNeigh ip.display) = some mac ∨
      lookupArpCommand c.lower env.arpCommand ip.display = some mac

/-- The surroundings when the visitor's request performs an operation: it does not fail, and the ARP table is right. -/
structure Surroundings.Serves (c : FrontConfig) (v : Visitor) (env : Surroundings) : Prop where
  fault : ∀ op, env.fault op = none
  mac : lookupProcNetArp c.lower env.procNetArp v.addr.display = some v.mac

/-- The surroundings of the others, with any faults: other addresses are those of other devices. -/
def Surroundings.Apart (c : FrontConfig) (v : Visitor) (env : Surroundings) : Prop :=
  ∀ ip mac, ip ≠ v.addr → env.Names c ip mac → c.lower mac ≠ v.key c

namespace Visitor

variable {c : FrontConfig} {v : Visitor} {s s' : AppState}

def others (c : FrontConfig) (v : Visitor) :
    Rules Access Access.Out AppState { env // Surroundings.Apart c v env } where
  rely s s' := (v.Expected c s → v.Expected c s') ∧ s.world.db.tables.History s'.world.db.tables
  allowed := v.Lets c
  handler env := AppState.exec env.1
  refl _ := ⟨fun h => h, .refl _⟩
  trans h h' := ⟨fun hs => h'.1 (h.1 hs), h.2.trans h'.2⟩
  keeps env op s hok := ⟨fun hs => (hok.exec hs env.1).1, AppState.history_exec env.1 op s⟩

def stand (c : FrontConfig) (v : Visitor) :
    Stand Access Access.Out AppState { env // Surroundings.Serves c v env } where
  rely s s' := v.Expected c s → v.Expected c s' ∧ v.Spared c s s'
  performs _ := v.Does c
  handler env := AppState.exec env.1
  refl s h := ⟨h, .refl s⟩
  trans h h' hs := ⟨(h' (h hs).1).1, (h hs).2.trans (h' (h hs).1).2⟩

def company (c : FrontConfig) (v : Visitor) : Company Access Access.Out AppState
    { env // Surroundings.Serves c v env } { env // Surroundings.Apart c v env } where
  one := v.stand c
  others := v.others c
  one_keeps env op s hok := ⟨fun hs => hok.expected hs env.2.fault, AppState.history_exec env.1 op s⟩
  others_keep env _ _ hok hs := hok.exec hs env.1

/-! ### What they do to the database and the firewall -/

variable {α : Type}

theorem ends_world {Q : α → World → Prop} {p : Prog Op Op.Out α} (hs : v.Expected c s)
    (h : (v.guest c).stand.Ends Q p s.world) :
    (v.stand c).Ends (fun a s => v.Expected c s ∧ Q a s.world) (Front.world p) s := by
  induction p generalizing s with
  | done a => exact fun s' hr => ⟨(hr hs).1, h s'.world fun _ => ⟨(hr hs).1.guest, (hr hs).2.guest⟩⟩
  | call op next ih =>
    intro s' hr
    obtain ⟨hdoes, hnext⟩ := h s'.world fun _ => ⟨(hr hs).1.guest, (hr hs).2.guest⟩
    have hdoes' : v.Does c (.world op) := hdoes
    refine ⟨hdoes, fun env => ?_⟩
    have hexec : AppState.exec env.1 (.world op) s' =
        ((World.exec none op s'.world).1, { s' with world := (World.exec none op s'.world).2 }) := by
      rw [← env.2.fault op]
      rfl
    show (v.stand c).Ends _ (Front.world (next (AppState.exec env.1 (.world op) s').1))
      (AppState.exec env.1 (.world op) s').2
    refine ih _ (hdoes'.expected (hr hs).1 env.2.fault) ?_
    rw [hexec]
    exact hnext ()

theorem heeds_world {p : Prog Op Op.Out α} (hs : v.Expected c s) (h : (v.guest c).others.Heeds p s.world) :
    (v.others c).Heeds (Front.world p) s := by
  induction p generalizing s with
  | done => trivial
  | call op next ih =>
    intro s' hr
    obtain ⟨hlets, hnext⟩ := h s'.world ⟨fun _ => (hr.1 hs).guest, hr.2⟩
    refine ⟨hlets, fun env => ?_⟩
    have hlets' : v.Lets c s' (.world op) := hlets
    exact ih _ (hlets'.exec (hr.1 hs) env.1).1 (hnext (env.1.fault op))

/-! ## The visitor's request -/

/-- The visitor has not used its code, and comes in time. -/
structure Waiting (c : FrontConfig) (v : Visitor) (s : AppState) : Prop where
  expected : v.Expected c s
  guest : (v.guest c).Waiting s.world
  inTime : (v.guest c).InTime s.world.now

/-- Its address has room for another attempt. -/
structure Roomy (c : FrontConfig) (v : Visitor) (s : AppState) : Prop where
  attempts : (s.rateLimiter.entry v.addr).length < c.rateLimit.maxAuthAttempts.toNat
  beforeBan : (s.rateLimiter.entry v.addr).length + 1 < c.rateLimit.banAfterAttempts.toNat
  unbanned : s.rateLimiter.bans.lookup v.addr = none

/-- The token of its form is the one that was last given to its device, and is accepted until the form closes. -/
def FormOpen (c : FrontConfig) (v : Visitor) (s : AppState) : Prop :=
  ∃ e, s.portalCsrfStore.lookup (v.key c) = some e ∧ e.token = v.form.csrfToken ∧
    v.closes ≤ e.createdAt + csrfTokenTtl

theorem Waiting.later (h : v.Waiting c s) (hr : (v.stand c).rely s s') : v.Waiting c s' := by
  obtain ⟨hs', hspared⟩ := hr h.expected
  refine ⟨hs', h.guest.later fun _ => ⟨hs'.guest, hspared.guest⟩, h.inTime.later hspared.guest.now hs'.guest.inTime⟩

theorem Roomy.later (h : v.Roomy c s) (hr : v.Spared c s s') : v.Roomy c s' :=
  ⟨hr.attempts.trans_lt h.attempts, (Nat.add_le_add_right hr.attempts 1).trans_lt h.beforeBan, hr.bans h.unbanned⟩

theorem FormOpen.later (h : v.FormOpen c s) (hr : v.Spared c s s') : v.FormOpen c s' := by
  obtain ⟨e, he, htoken, hcloses⟩ := h
  exact ⟨e, hr.form e he hcloses, htoken, hcloses⟩

/-- An operation of its own that leaves the world alone. -/
theorem Waiting.own (h : v.Waiting c s) {op : Access} (hdoes : v.Does c op) {env : Surroundings}
    (henv : ∀ op, env.fault op = none) (hworld : (AppState.exec env op s).2.world = s.world) :
    v.Waiting c (AppState.exec env op s).2 :=
  ⟨hdoes.expected h.expected henv, hworld ▸ h.guest, hworld ▸ h.inTime⟩

/-- What its request comes to. -/
def Received (c : FrontConfig) (v : Visitor) (a : Answer) (s : AppState) : Prop :=
  a = .redirect "/portal/success" none ∧ (v.guest c).LetIn s.world

theorem ends_enterCode (h : v.Waiting c s) (hmac : validateMac v.mac = .ok ())
    (hformat : validateTokenFormat c.token (v.guest c).code = .ok (.ok ())) (draws : FrontDraws) :
    (v.stand c).Ends (v.Received c) (Front.enterCode c v.addr (v.guest c).code v.mac draws) s := by
  unfold Front.enterCode
  rw [hformat]
  refine Stand.Ends.bind (ends_world h.expected (h.guest.ends hmac h.inTime)) fun a s' hs' => ?_
  obtain ⟨hs', rfl, hin⟩ := hs'
  exact fun s'' hr => ⟨rfl, hin.later (hr hs').2.guest⟩

/-- The part of `check_and_record` behind the ban check. -/
def recordAttempt (now : Nat) (ip : IpAddr) : Attempt := .call (.sweepBans now) fun _ => .call (.record now ip) .done

theorem checkAndRecord_eq (ip : IpAddr) : checkAndRecord ip = .call .now fun now => .call (.checkBan now ip) fun ban =>
    ban.elim (recordAttempt now ip) fun result => .done (.ok result) :=
  Prog.call_congr fun now => Prog.call_congr fun ban => by cases ban <;> rfl

/-- The recording lets the attempt pass. -/
theorem record_allowed (hs : v.Expected c s) (hroom : v.Roomy c s) (now : Nat) :
    (s.rateLimiter.record now v.addr).1 = .ok .allowed := by
  have hlen : (s.rateLimiter.recorded now v.addr).length ≤ (s.rateLimiter.entry v.addr).length + 1 := by
    have := List.length_filter_le (fun t => decide (now - t < s.rateLimiter.window)) (s.rateLimiter.entry v.addr)
    unfold RateLimiter.recorded RateLimiter.young
    rw [List.length_append, List.length_singleton]
    omega
  have hmax := hroom.attempts
  have hban := hroom.beforeBan
  have hbound := c.rateLimit.banAfterAttempts.toNat_lt
  rcases RateLimiter.record_cases now v.addr hs.poisoned (by omega) with ⟨hge, -⟩ | ⟨-, hrec⟩
  · rw [hs.config] at hge
    omega
  · rw [hrec, hs.config, if_neg (by omega)]

theorem ends_checkAndRecord (h : v.Waiting c s) (hroom : v.Roomy c s) :
    (v.stand c).Ends (fun r s => r = .ok .allowed ∧ v.Waiting c s)
      (Front.limiter .portal (checkAndRecord v.addr)) s := by
  rw [checkAndRecord_eq]
  intro s₁ h₁
  refine ⟨trivial, fun env₁ => fun s₂ h₂ => ⟨trivial, fun env₂ => ?_⟩⟩
  have hw₁ := h.later h₁
  have hr₁ := hroom.later (h₁ h.expected).2
  have hw₂ := hw₁.later h₂
  have hr₂ := hr₁.later (h₂ hw₁.expected).2
  have hban : s₂.rateLimiter.checkBan s₁.clock v.addr = none := by
    unfold RateLimiter.checkBan
    rw [hr₂.unbanned]
  show (v.stand c).Ends _ (Prog.embed _ _ (Option.elim (s₂.rateLimiter.checkBan s₁.clock v.addr) _ _)) s₂
  rw [hban]
  intro s₃ h₃
  have hw₃ := hw₂.later h₃
  have hr₃ := hr₂.later (h₃ hw₂.expected).2
  refine ⟨trivial, fun env₃ => ?_⟩
  -- the sweep is one of its own operations
  have hsweep : v.Does c (.limiter .portal (.sweepBans s₁.clock)) := trivial
  have hw₃' := hw₃.own hsweep env₃.2.fault rfl
  have hr₃' : v.Roomy c (AppState.exec env₃.1 (.limiter .portal (.sweepBans s₁.clock)) s₃).2 :=
    ⟨hr₃.attempts, hr₃.beforeBan, RateLimiter.sweepBans_none hr₃.unbanned _⟩
  intro s₄ h₄
  have hw₄ := hw₃'.later h₄
  have hr₄ := hr₃'.later (h₄ hw₃'.expected).2
  have hrecord : v.Does c (.limiter .portal (.record s₁.clock v.addr)) := hw₁.expected.clock
  refine ⟨hrecord, fun env₄ => fun s₅ h₅ => ⟨record_allowed hw₄.expected hr₄ _, ?_⟩⟩
  exact (hw₄.own hrecord env₄.2.fault rfl).later h₅

theorem ends_validate (h : v.Waiting c s) (hform : v.FormOpen c s) (hroom : v.Roomy c s) :
    (v.stand c).Ends (fun ok s => ok = true ∧ v.Waiting c s ∧ v.Roomy c s)
      (Front.validate c .portal v.mac v.form.csrfToken) s := by
  intro s₁ h₁
  have hw₁ := h.later h₁
  have hr₁ := hroom.later (h₁ h.expected).2
  obtain ⟨e, he, htoken, hcloses⟩ := hform.later (h₁ h.expected).2
  have hdoes : v.Does c (.csrf .portal (.validate (v.key c) v.form.csrfToken)) := trivial
  refine ⟨hdoes, fun env s₂ h₂ => ?_⟩
  have hvalid : (s₁.portalCsrfStore.lookup (v.key c)).any (PortalCsrfStore.accepts s₁.clock v.form.csrfToken) =
      true := by
    have := hw₁.expected.clock
    rw [he, Option.any_some]
    unfold PortalCsrfStore.accepts
    rw [if_neg (by omega), htoken, beq_self_eq_true]
  have hw₁' := hw₁.own hdoes env.2.fault rfl
  have hr₁' : v.Roomy c (AppState.exec env.1 (.csrf .portal (.validate (v.key c) v.form.csrfToken)) s₁).2 :=
    ⟨hr₁.attempts, hr₁.beforeBan, hr₁.unbanned⟩
  exact ⟨hvalid, hw₁'.later h₂, hr₁'.later (h₂ hw₁'.expected).2⟩

theorem ends_clientInfo (h : v.Waiting c s) (hform : v.FormOpen c s) (hroom : v.Roomy c s)
    (hmac : validateMac v.mac = .ok ()) :
    (v.stand c).Ends (fun r s => r = .ok v.mac ∧ v.Waiting c s ∧ v.FormOpen c s ∧ v.Roomy c s)
      (Front.clientInfo c v.addr) s := by
  have lookup : (v.stand c).Ends (fun r s => r = some v.mac ∧ v.Waiting c s ∧ v.FormOpen c s ∧ v.Roomy c s)
      (Front.lookupMac c v.addr) s := by
    intro s₁ h₁
    refine ⟨trivial, fun env => ?_⟩
    have hc : lookupProcNetArp c.lower ((v.stand c).handler env .procNetArp s₁).1 v.addr.display = some v.mac :=
      env.2.mac
    simp only [Prog.bind, hc]
    intro s₂ h₂
    have hr := (v.stand c).trans h₁ h₂
    obtain ⟨-, hspared⟩ := hr h.expected
    exact ⟨rfl, h.later hr, hform.later hspared, hroom.later hspared⟩
  refine lookup.bind fun r s₁ hs₁ => ?_
  obtain ⟨rfl, h, hform, hroom⟩ := hs₁
  intro s₂ h₂
  obtain ⟨-, hspared⟩ := h₂ h.expected
  have hvalid : validateMacOrErr (some v.mac) = .ok v.mac := if_pos (isValidMac_iff.2 hmac)
  exact ⟨hvalid, h.later h₂, hform.later hspared, hroom.later hspared⟩

theorem ends_portalAuth (h : v.Waiting c s) (hform : v.FormOpen c s) (hroom : v.Roomy c s)
    (hmac : validateMac v.mac = .ok ()) (hformat : validateTokenFormat c.token (v.guest c).code = .ok (.ok ()))
    (draws : FrontDraws) : (v.stand c).Ends (v.Received c) (Front.portalAuth c v.addr v.form draws) s := by
  refine (ends_clientInfo h hform hroom hmac).bind fun r s₁ hs₁ => ?_
  obtain ⟨rfl, h, hform, hroom⟩ := hs₁
  refine (ends_validate h hform hroom).bind fun ok s₂ hs₂ => ?_
  obtain ⟨rfl, h, hroom⟩ := hs₂
  refine (ends_checkAndRecord h hroom).bind fun verdict s₃ hs₃ => ?_
  obtain ⟨rfl, h⟩ := hs₃
  exact ends_enterCode h hmac hformat draws

/-! ## The others' requests -/

open Rules

variable {ip : IpAddr} {draws : FrontDraws} {mac key : String} {x : Front α}

/-- What the others may do in every state. -/
theorem heeds_of_lets (h : x.Uses fun op => ∀ s, v.Lets c s op) : (v.others c).Heeds x s := h.heeds fun s _ hop => hop s

theorem lets_settings : ∀ s, v.Lets c s (.world (.sql .getAllSettings)) := fun _ => trivial

/-- Another address is not that of the visitor's device. -/
theorem heeds_lookupMac {f : Option String → Front α} (hip : ip ≠ v.addr)
    (hf : ∀ r s', (v.others c).rely s s' → (∀ mac ∈ r, c.lower mac ≠ v.key c) → (v.others c).Heeds (f r) s') :
    (v.others c).Heeds (Front.lookupMac c ip >>= f) s := by
  have lookup : (Stand.of (v.others c)).Ends
      (fun r s' => (v.others c).rely s s' ∧ ∀ mac ∈ r, c.lower mac ≠ v.key c) (Front.lookupMac c ip) s := by
    intro s₁ h₁
    refine ⟨trivial, fun env => ?_⟩
    cases hc : lookupProcNetArp c.lower ((v.others c).handler env .procNetArp s₁).1 ip.display with
    | some mac =>
      simp only [Prog.bind, Stand.of, hc]
      refine fun s₂ h₂ => ⟨(v.others c).trans h₁ h₂, fun m hm => ?_⟩
      cases hm
      exact env.2 ip mac hip (.inl hc)
    | none =>
      simp only [Prog.bind, Stand.of, hc]
      intro s₂ h₂
      refine ⟨trivial, fun env => ?_⟩
      cases hn : lookupIpNeigh c.lower ((v.others c).handler env (.ipNeigh ip.display) s₂).1 with
      | some mac =>
        simp only [Prog.bind, hn]
        refine fun s₃ h₃ => ⟨(v.others c).trans h₁ ((v.others c).trans h₂ h₃), fun m hm => ?_⟩
        cases hm
        exact env.2 ip mac hip (.inr (.inl hn))
      | none =>
        simp only [Prog.bind, hn]
        refine fun s₃ h₃ => ⟨trivial, fun env s₄ h₄ => ⟨?_, fun m hm => ?_⟩⟩
        · exact (v.others c).trans h₁ ((v.others c).trans h₂ ((v.others c).trans h₃ h₄))
        · exact env.2 ip m hip (.inr (.inr hm))
  exact lookup.heeds_bind fun r s' h => hf r s' h.1 h.2

/-- A new token for another device. -/
theorem heeds_csrfGenerate (hs : v.Expected c s) (hkey : c.lower key ≠ v.key c) :
    (v.others c).Heeds (Front.csrf .portal (csrfGenerate c.lower key draws.csrf)) s :=
  fun _ h₁ => ⟨trivial, fun _ _ _ => ⟨⟨hkey, (h₁.1 hs).clock⟩, fun _ => trivial⟩⟩

theorem heeds_getOrGenerate (hs : v.Expected c s) (hkey : c.lower key ≠ v.key c) :
    (v.others c).Heeds (Front.getOrGenerate c .portal key draws) s := by
  refine Heeds.bind (p := Front.csrf _ _) (fun s₁ h₁ => ⟨trivial, fun env => ?_⟩) fun _ _ _ => trivial
  generalize ((v.others c).handler env (.csrf .portal (.read (c.lower key))) s₁).1 = live
  cases live with
  | some token => trivial
  | none => exact heeds_csrfGenerate (h₁.1 hs) hkey

theorem heeds_portalError (hs : v.Expected c s) (hkey : c.lower mac ≠ v.key c) (error : String) :
    (v.others c).Heeds (Front.portalError c error mac draws) s := by
  refine Heeds.bind ((heeds_csrfGenerate hs hkey).bind fun _ _ _ => trivial) fun _ s₁ _ => ?_
  exact heeds_of_lets ((uses_portalConfigFromDb lets_settings).bind fun _ => trivial)

theorem heeds_checkAndRecord (hs : v.Expected c s) (hip : ip ≠ v.addr) :
    (v.others c).Heeds (Front.limiter .portal (checkAndRecord ip)) s := by
  rw [checkAndRecord_eq]
  intro s₁ h₁
  refine ⟨trivial, fun env₁ s₂ h₂ => ⟨trivial, fun env₂ => ?_⟩⟩
  show (v.others c).Heeds (Prog.embed _ _ (Option.elim (s₂.rateLimiter.checkBan s₁.clock ip) _ _)) s₂
  cases s₂.rateLimiter.checkBan s₁.clock ip with
  | some result => trivial
  | none => exact fun s₃ h₃ => ⟨trivial, fun env₃ s₄ h₄ => ⟨⟨hip, (h₁.1 hs).clock⟩, fun _ => trivial⟩⟩

theorem heeds_enterCode (hs : v.Expected c s) (hmac : c.lower mac ≠ v.key c) {code : String}
    (hcode : code ≠ (v.guest c).code) : (v.others c).Heeds (Front.enterCode c ip code mac draws) s := by
  unfold Front.enterCode
  split
  · trivial
  · exact heeds_portalError hs hmac _
  · have hne : mac ≠ (v.guest c).mac := fun he => hmac (congrArg c.lower he)
    refine (heeds_world hs (Guest.heeds_portalAuth hs.guest hcode hne ip.display)).bind fun answer s₁ h₁ => ?_
    cases answer with
    | internal e => trivial
    | success => trivial
    | error key => exact heeds_portalError (h₁.1 hs) hmac key

theorem heeds_clientInfo {f : Except AppError String → Front α} (hip : ip ≠ v.addr)
    (herror : ∀ e s', (v.others c).Heeds (f (.error e)) s')
    (hf : ∀ mac s', (v.others c).rely s s' → c.lower mac ≠ v.key c → (v.others c).Heeds (f (.ok mac)) s') :
    (v.others c).Heeds (Front.clientInfo c ip >>= f) s := by
  have assoc : Front.clientInfo c ip >>= f = Front.lookupMac c ip >>= fun r => f (validateMacOrErr r) :=
    Prog.bind_assoc ..
  rw [assoc]
  refine heeds_lookupMac hip fun r s' hr hmacs => ?_
  cases hv : validateMacOrErr r with
  | error e => exact herror e s'
  | ok mac => exact hf mac s' hr (hmacs mac (validateMacOrErr_ok hv).1)

/-- Another guest, from another address and with another code. -/
theorem heeds_portalAuth (hs : v.Expected c s) (hip : ip ≠ v.addr) {form : AuthForm}
    (hcode : normalizeCode c.upper form.token ≠ (v.guest c).code) :
    (v.others c).Heeds (Front.portalAuth c ip form draws) s := by
  refine heeds_clientInfo hip (fun _ _ => trivial) fun mac s₁ h₁ hmac => ?_
  have hs₁ := h₁.1 hs
  have validate : (v.others c).Heeds (Front.validate c .portal mac form.csrfToken) s₁ :=
    heeds_of_lets (Prog.Uses.bind (Prog.uses_embed ⟨fun _ => hmac, fun _ => trivial⟩) fun _ => trivial)
  refine validate.bind fun ok s₂ h₂ => ?_
  have hs₂ := h₂.1 hs₁
  split
  · exact heeds_portalError hs₂ hmac _
  refine (heeds_checkAndRecord hs₂ hip).bind fun verdict s₃ h₃ => ?_
  rcases verdict with e | _ | _ | _
  · trivial
  · exact heeds_enterCode (h₃.1 hs₂) hmac hcode
  · trivial
  · trivial

theorem heeds_portalPage (hs : v.Expected c s) (hip : ip ≠ v.addr) :
    (v.others c).Heeds (Front.portalPage c ip draws) s := by
  refine heeds_clientInfo hip (fun _ _ => trivial) fun mac s₁ h₁ hmac => ?_
  refine (heeds_getOrGenerate (h₁.1 hs) hmac).bind fun _ s₂ _ => ?_
  exact heeds_of_lets ((uses_portalConfigFromDb lets_settings).bind fun _ => trivial)

/-- What the login form has of its own, and the sessions of the admins. -/
theorem lets_login (p : Prog CsrfOp CsrfOp.Out α) :
    (Front.csrf .login p).Uses fun op => ∀ s, v.Lets c s op :=
  Prog.uses_embed (Prog.uses_of_forall (fun _ _ => trivial) p)

theorem lets_sessions (y : Web α) : (Front.sessions y).Uses fun op => ∀ s, v.Lets c s op :=
  uses_sessions y fun _ _ => trivial

theorem heeds_loginPage : (v.others c).Heeds (Front.loginPage c ip draws) s := by
  have form : (Front.getOrGenerate c .login ip.display draws).Uses fun op => ∀ s, v.Lets c s op :=
    (lets_login _).bind fun _ => trivial
  exact heeds_of_lets (form.bind fun _ => (uses_portalConfigFromDb lets_settings).bind fun _ => trivial)

theorem lets_loginError {status : Nat} {retryAfter : Option Nat} {error : String} {portal : PortalSection} :
    (Front.loginError c status retryAfter error ip portal draws).Uses fun op => ∀ s, v.Lets c s op := by
  have form : (Front.generate c .login ip.display draws).Uses fun op => ∀ s, v.Lets c s op :=
    (lets_login _).bind fun _ => trivial
  exact form.bind fun _ => trivial

/-- A login from another address lets in another device. -/
theorem heeds_logIn (hip : ip ≠ v.addr) (header : Option String) (username : String) :
    (v.others c).Heeds (Front.logIn c ip header username draws) s := by
  have entered (s : AppState) : (v.others c).Heeds (Front.enterSession c draws) s :=
    heeds_of_lets ((lets_sessions _).bind fun r => by cases r <;> trivial)
  refine Heeds.bind (p := Front.world _) (heeds_of_lets (Prog.uses_embed ⟨fun _ => trivial, fun _ => trivial⟩))
    fun _ s₁ _ => (heeds_of_lets (lets_sessions _)).bind fun _ s₂ _ => ?_
  refine heeds_lookupMac hip fun arp s₃ _ hmacs => ?_
  cases arp with
  | none => exact entered s₃
  | some mac =>
    have hne : mac ≠ v.mac := fun he => hmacs mac rfl (congrArg c.lower he)
    refine Heeds.bind (p := Front.world _) (heeds_of_lets (Prog.uses_embed ?_)) fun _ s₄ _ => entered s₄
    exact uses_authorize fun _ => hne

theorem heeds_loginSubmit (hip : ip ≠ v.addr) (header : Option String) (form : LoginForm) :
    (v.others c).Heeds (Front.loginSubmit c ip header form draws) s := by
  have validate : (Front.validate c .login ip.display form.csrfToken).Uses fun op => ∀ s, v.Lets c s op :=
    (lets_login _).bind fun _ => trivial
  refine (heeds_of_lets (uses_portalConfigFromDb lets_settings)).bind fun portal s₁ _ => ?_
  refine (heeds_of_lets validate).bind fun ok s₂ _ => ?_
  split
  · exact heeds_of_lets lets_loginError
  refine Heeds.bind (p := Front.limiter _ _) (heeds_of_lets (Prog.uses_embed (Prog.uses_of_forall (fun _ _ => ?_) _)))
    fun verdict s₃ _ => ?_
  · trivial
  rcases verdict with e | _ | _ | _
  · trivial
  · show (v.others c).Heeds (ite _ _ _) s₃
    split
    · exact heeds_of_lets lets_loginError
    · refine Heeds.bind (heeds_perform fun _ _ => trivial) fun passwordOk s₄ _ => ?_
      split
      · exact heeds_logIn hip header form.username
      · refine Heeds.bind (p := Front.world _) (heeds_of_lets (Prog.uses_embed ⟨fun _ => trivial, fun _ => trivial⟩))
          fun _ s₅ _ => heeds_of_lets lets_loginError
  · exact heeds_of_lets lets_loginError
  · exact heeds_of_lets lets_loginError

/-- An admin who takes nothing from the guest. -/
theorem heeds_admin (hs : v.Expected c s) (header : Option String) {a : AdminAction c.token}
    (h : a.Spares (v.guest c) s.world) : (v.others c).Heeds (Front.admin c header a) s := by
  refine (heeds_of_lets (lets_sessions _)).bind fun r s₁ h₁ => ?_
  cases r with
  | error r => trivial
  | ok _ =>
    refine (heeds_of_lets (lets_sessions _)).bind fun r s₂ h₂ => ?_
    cases r with
    | error r => trivial
    | ok csrf =>
      have hr := (v.others c).trans h₁ h₂
      have action := Guest.heeds_action (c := ⟨c.adminUsername, c.token, 0⟩) hs.guest h csrf
      refine Heeds.bind ((heeds_world hs action).later hr) fun r s₃ _ => ?_
      cases r <;> trivial

end Visitor

/-- A request that takes nothing from the visitor: from other addresses, with other codes. -/
def FrontCall.Spares {c : FrontConfig} (v : Visitor) (s : AppState) : FrontCall c → Prop
  | .portalPage ip _ | .loginSubmit ip _ _ _ => ip ≠ v.addr
  | .portalAuth ip form _ => ip ≠ v.addr ∧ normalizeCode c.upper form.token ≠ (v.guest c).code
  | .admin _ a => a.Spares (v.guest c) s.world
  | .loginPage .. | .logout _ | .redirectToLogin _ => True

theorem Visitor.heeds_program {c : FrontConfig} {v : Visitor} {s : AppState} (hs : v.Expected c s) {k : FrontCall c}
    (h : k.Spares v s) : (v.others c).Heeds k.program s := by
  cases k with
  | portalPage => exact heeds_portalPage hs h
  | portalAuth => exact heeds_portalAuth hs h.1 h.2
  | loginPage => exact heeds_loginPage
  | loginSubmit ip header form => exact heeds_loginSubmit h header form
  | logout => exact heeds_of_lets ((lets_sessions _).bind fun _ => trivial)
  | redirectToLogin => exact heeds_of_lets ((lets_sessions _).bind fun r => by cases r <;> trivial)
  | admin header => exact heeds_admin hs header h

/-! ## Runs -/

/-- A step of a run in which thread `n` is the visitor's. Time passes only until the form closes, and what the rest of
the daemon does to the world is what the guest can stand. -/
def FrontTurn.Spares {c : FrontConfig} (v : Visitor) (n : Nat) (s : FrontJournal c) : FrontTurn c → Prop
  | .start k => k.Spares v s.pool.shared
  | .advance i env => if i = n then env.Serves c v else env.Apart c v
  | .other (.elapse nanos) => s.pool.shared.clock + nanos < v.closes
  | .other (.world w) => (v.guest c).stand.rely s.pool.shared.world w ∧ (v.guest c).others.rely s.pool.shared.world w

section Runs

variable {c : FrontConfig} {v : Visitor} {n : Nat} {s₀ s s₁ s' : FrontJournal c} {l : FrontTurn c}

theorem FrontTurn.spares_of_serves {env : Surroundings} (h : env.Serves c v) :
    FrontTurn.Spares v n s (.advance n env) := by
  show ite (n = n) (env.Serves c v) (env.Apart c v)
  rw [if_pos rfl]
  exact h

theorem FrontTurn.spares_of_apart {i : Nat} (hi : i ≠ n) {env : Surroundings} (h : env.Apart c v) :
    FrontTurn.Spares v n s (.advance i env) := by
  show ite (i = n) (env.Serves c v) (env.Apart c v)
  rw [if_neg hi]
  exact h

/-- What happens elsewhere. -/
theorem Visitor.elsewhere {m : Elsewhere} (h : FrontTurn.Spares v n s (.other m)) :
    (v.stand c).rely s.pool.shared (m.apply s.pool.shared) ∧
      (v.others c).rely s.pool.shared (m.apply s.pool.shared) := by
  cases m with
  | elapse nanos =>
    have expected (hs : v.Expected c s.pool.shared) : v.Expected c (Elsewhere.apply (.elapse nanos) s.pool.shared) :=
      ⟨hs.guest, hs.poisoned, hs.config, h, hs.bans⟩
    exact ⟨fun hs => ⟨expected hs, .refl _ _, fun _ he _ => he, le_rfl, fun hb => hb⟩, expected, .refl _⟩
  | world w =>
    have expected (hs : v.Expected c s.pool.shared) : v.Expected c (Elsewhere.apply (.world w) s.pool.shared) :=
      ⟨(h.1 hs.guest).1, hs.poisoned, hs.config, hs.clock, hs.bans⟩
    exact ⟨fun hs => ⟨expected hs, (h.1 hs.guest).2, fun _ he _ => he, le_rfl, fun hb => hb⟩, expected, h.2.2⟩

/-- Before the visitor comes: it goes on waiting, and those under way go on sparing it. -/
structure Visitor.Awaited (v : Visitor) (s : FrontJournal c) : Prop where
  expected : v.Expected c s.pool.shared
  guest : (v.guest c).Waiting s.pool.shared.world
  threads : ∀ t ∈ s.pool.threads, (v.others c).Heeds t.rest s.pool.shared

/-- No thread goes away. -/
theorem threads_le_of_step (hs : (frontRuns c).step s l = some s') :
    s.pool.threads.length ≤ s'.pool.threads.length := by
  rcases Workshop.step_cases hs with ⟨k, -, rfl⟩ | ⟨i, env, k, op, next, -, -, rfl⟩ | ⟨m, -, rfl⟩
  · simp [Pool.spawn]
  · simp
  · exact le_rfl

theorem Visitor.Awaited.step (h : v.Awaited s) (hok : l.Spares v n s) (hn : s.pool.threads.length ≤ n)
    (hs : (frontRuns c).step s l = some s') : v.Awaited s' := by
  cases l with
  | start k =>
    cases hs
    refine ⟨h.expected, h.guest, fun t ht => ?_⟩
    rcases List.mem_append.1 ht with ht | ht
    · exact h.threads t ht
    · rw [List.mem_singleton.1 ht]
      exact heeds_program h.expected hok
  | advance i env =>
    have hpool := Workshop.advance_of_step hs
    obtain ⟨tag, op, next, ht, -, he⟩ := Pool.advance_call hpool
    obtain ⟨hlets, -⟩ := h.threads _ (List.mem_of_getElem? ht) s.pool.shared ((v.others c).refl _)
    have hshared : (AppState.exec env op s.pool.shared).2 = s'.pool.shared := (congrArg Pool.shared he).symm
    obtain ⟨hexpected, hspared⟩ := hlets.exec h.expected env
    rw [hshared] at hexpected hspared
    -- the thread is not the visitor's, which has not been started
    have hi : i ≠ n := ((List.getElem?_eq_some_iff.1 ht).1.trans_le hn).ne
    have hapart : env.Apart c v := (if_neg hi).mp hok
    exact ⟨hexpected, h.guest.later fun _ => ⟨hexpected.guest, hspared.guest⟩,
      ((v.others c).heeds_advance (i := ⟨env, hapart⟩) h.threads hpool).2⟩
  | other m =>
    cases hs
    obtain ⟨hone, hothers⟩ := v.elsewhere hok
    obtain ⟨hexpected, hspared⟩ := hone h.expected
    exact ⟨hexpected, h.guest.later fun _ => ⟨hexpected.guest, hspared.guest⟩,
      fun t ht => (h.threads t ht).later hothers⟩

/-- The visitor has posted its form, among others. -/
abbrev Visitor.Served (v : Visitor) (n : Nat) (s : FrontJournal c) : Prop :=
  v.Expected c s.pool.shared ∧ (v.company c).Together (v.Received c) n s.pool

theorem Visitor.Served.step (h : v.Served n s) (hok : l.Spares v n s) (hs : (frontRuns c).step s l = some s') :
    v.Served n s' := by
  obtain ⟨hexpected, hall⟩ := h
  cases l with
  | start k =>
    cases hs
    exact ⟨hexpected, hall.spawn (heeds_program hexpected hok)⟩
  | other m =>
    cases hs
    obtain ⟨hone, hothers⟩ := v.elsewhere hok
    exact ⟨(hone hexpected).1, hall.other hone hothers⟩
  | advance i env =>
    have hpool := Workshop.advance_of_step hs
    obtain ⟨tag, op, next, ht, -, he⟩ := Pool.advance_call hpool
    by_cases hi : i = n
    · have hserves : env.Serves c v := (if_pos hi).mp hok
      subst hi
      obtain ⟨t, ht', hends⟩ := hall.one
      rw [ht] at ht'
      cases ht'
      obtain ⟨hdoes, -⟩ := hends s.pool.shared ((v.stand c).refl _)
      exact ⟨he ▸ hdoes.expected hexpected hserves.fault, hall.advance_one (i := ⟨env, hserves⟩) hpool⟩
    · have hapart : env.Apart c v := (if_neg hi).mp hok
      obtain ⟨hlets, -⟩ := hall.others i _ hi ht s.pool.shared ((v.others c).refl _)
      exact ⟨he ▸ (hlets.exec hexpected env).1, hall.advance_other (i := ⟨env, hapart⟩) hi hpool⟩

/-- When the visitor's request ends, it is redirected to the success page and let in. The run up to its coming starts
with nothing under way. -/
theorem posted_code_lets_in (hidle : ∀ t ∈ s₀.pool.threads, ∃ a, t.rest = .done a)
    (hexpected : v.Expected c s₀.pool.shared) (hwaiting : (v.guest c).Waiting s₀.pool.shared.world)
    (hbefore : Path (frontRuns c) (FrontTurn.Spares v n) s₀ s) (hform : v.FormOpen c s.pool.shared)
    (hroom : v.Roomy c s.pool.shared) (htime : (v.guest c).InTime s.pool.shared.world.now)
    (hmac : validateMac v.mac = .ok ()) (hformat : validateTokenFormat c.token (v.guest c).code = .ok (.ok ()))
    (hn : s.pool.threads.length = n) {draws : FrontDraws}
    (hposts : (frontRuns c).step s (.start (.portalAuth v.addr v.form draws)) = some s₁)
    (hafter : Path (frontRuns c) (FrontTurn.Spares v n) s₁ s') {t : Thread (FrontCall c) Access Access.Out Answer}
    (ht : s'.pool.threads[n]? = some t) {a : Answer} (hdone : t.rest = .done a) : v.Received c a s'.pool.shared := by
  have awaited : s.pool.threads.length ≤ n → v.Awaited s := by
    refine hbefore.invariant (I := fun s => s.pool.threads.length ≤ n → v.Awaited s)
      (fun _ _ _ h hok hs hle => ?_) fun _ => ⟨hexpected, hwaiting, fun t ht => ?_⟩
    · have hlen := (threads_le_of_step hs).trans hle
      exact (h hlen).step hok hlen hs
    · obtain ⟨a, ha⟩ := hidle t ht
      rw [ha]
      trivial
  obtain ⟨hexpected, hguest, hthreads⟩ := awaited hn.le
  subst hn
  cases hposts
  have served : v.Served s.pool.threads.length s' := by
    refine hafter.invariant (I := v.Served s.pool.threads.length) (fun _ _ _ h hok hs => h.step hok hs)
      ⟨hexpected, .start hthreads ?_⟩
    exact Visitor.ends_portalAuth ⟨hexpected, hguest, htime⟩ hform hroom hmac hformat draws
  exact served.2.ended ht hdone

end Runs

/-- Somebody who has the page with the form, and the first code. -/
def formGuest : Visitor where
  addr := guestIp
  mac := "02:00:00:00:00:05"
  form := visitForm
  tokenId := 1
  deadline := World.opening.now + 58 * nanosPerSec
  closes := csrfTokenTtl

def otherIp : IpAddr := .v4 0x0A0A0006#32

/-- The neighbour table has another device only. -/
def otherKnown : Surroundings where
  fault _ := none
  procNetArp := some "IP address HW type\n10.10.0.6 0x1 0x2 02:00:00:00:00:06 * wlan0\n"
  ipNeigh _ := none
  arpCommand := none
  verifies _ _ := false

def otherAdvances (i count : Nat) : List (FrontTurn .small) := List.replicate count (.advance i otherKnown)

/-- The guest gets the page. -/
def guestOpens : List (FrontTurn .small) := .start (.portalPage guestIp repeated) :: advances 0 5

def otherOpens : List (FrontTurn .small) := .start (.portalPage otherIp repeated) :: otherAdvances 1 4

/-- The guest's request, while the other one gets the page and posts the second code. -/
def bothPost : List (FrontTurn .small) :=
  advances 2 4 ++ otherAdvances 1 1 ++
    .start (.portalAuth otherIp ⟨"CAFE-BBBB-BBBB", visitForm.csrfToken⟩ repeated) :: otherAdvances 3 9 ++ advances 2 7

theorem serves_quiet : quiet.Serves .small formGuest := ⟨fun _ => rfl, by decide +kernel⟩

theorem apart_otherKnown : otherKnown.Apart .small formGuest := by
  rintro ip mac - (h | h | h)
  · have hlines : (lines "IP address HW type\n10.10.0.6 0x1 0x2 02:00:00:00:00:06 * wlan0\n".toList).drop 1 =
        ["10.10.0.6 0x1 0x2 02:00:00:00:00:06 * wlan0".toList] := by decide +kernel
    have hfields : splitWhitespace "10.10.0.6 0x1 0x2 02:00:00:00:00:06 * wlan0".toList =
        ["10.10.0.6".toList, "0x1".toList, "0x2".toList, "02:00:00:00:00:06".toList, "*".toList, "wlan0".toList] := by
      decide +kernel
    unfold lookupProcNetArp otherKnown at h
    simp only [Option.bind_eq_bind, Option.bind_some, hlines, List.findSome?_singleton, hfields] at h
    have hmac : FrontConfig.small.lower (String.ofList "02:00:00:00:00:06".toList) = mac := by
      rw [← Option.some_inj, ← h]
      exact (if_pos (Option.ite_none_right_eq_some.1 h).1).symm
    rw [← hmac]
    decide +kernel
  · cases h
  · cases h

/-- The answer a request has come to. -/
def answerOf (s : FrontJournal .small) (i : Nat) : Option Answer :=
  match s.pool.threads[i]? with
  | some ⟨_, .done a⟩ => some a
  | _ => none

theorem answerOf_some {s : FrontJournal .small} {i : Nat} {a : Answer} (h : answerOf s i = some a) :
    ∃ t, s.pool.threads[i]? = some t ∧ t.rest = .done a := by
  unfold answerOf at h
  split at h
  · rename_i k a' ht
    cases h
    exact ⟨_, ht, rfl⟩
  · cases h

/-- The guest has the page, and has neither bought anything nor made an attempt. -/
def PageOpen (s : AppState) : Prop :=
  (firstToken ∈ s.world.db.tables.token ∧ s.world.db.tables.plan = [firstPlan] ∧ s.world.db.tables.session = [] ∧
    s.world.now = World.opening.now) ∧
  (s.rateLimiter.poisoned = false ∧ s.rateLimiter.config = FrontConfig.small.rateLimit ∧
    s.rateLimiter.entry guestIp = [] ∧ s.rateLimiter.bans.lookup guestIp = none) ∧
  s.clock = 0 ∧ s.portalCsrfStore.lookup "02:00:00:00:00:05" = some ⟨visitForm.csrfToken, 0⟩

instance (s : AppState) : Decidable (PageOpen s) := by
  unfold PageOpen
  infer_instance

theorem PageOpen.waiting {s : AppState} (h : PageOpen s) : formGuest.Waiting .small s := by
  obtain ⟨⟨htoken, hplan, hsession, hnow⟩, ⟨hpoisoned, hconfig, -⟩, hclock, -⟩ := h
  have hlt : s.world.now < (formGuest.guest .small).deadline := by
    rw [hnow]
    decide
  have waiting : (formGuest.guest .small).Waiting s.world :=
    Guest.waiting_firstToken htoken hplan hsession (by decide +kernel) rfl hlt
  refine ⟨⟨waiting.expected, hpoisoned, hconfig, ?_, fun now hnow => ?_⟩, waiting, ?_⟩
  · rw [hclock]
    decide
  · have hsmall : (now + fromSecs 900) / 1000000000 < 2 ^ 63 := by
      have : now < 600000000000 := hnow
      have h900 : fromSecs 900 = 900000000000 := by decide
      omega
    exact Option.isSome_iff_exists.2 ⟨_, if_pos hsmall⟩
  · rw [hnow]
    exact ⟨⟨by decide, by decide⟩, ⟨by decide, by decide⟩, by decide⟩

theorem PageOpen.roomy {s : AppState} (h : PageOpen s) : formGuest.Roomy .small s := by
  obtain ⟨-, ⟨-, -, hentry, hbans⟩, -⟩ := h
  have hlen : (s.rateLimiter.entry formGuest.addr).length = 0 := congrArg List.length hentry
  refine ⟨?_, ?_, hbans⟩
  · rw [hlen]
    decide
  · rw [hlen]
    decide

theorem posted_code_lets_in_formGuest : ∃ w s₀ s s₁ s', (house .small).trace newHouse twoTokens = some w ∧
    (frontRuns .small).trace ⟨⟨.new FrontConfig.small.rateLimit 3600 0 w.shared, []⟩, []⟩ guestOpens = some s₀ ∧
      (frontRuns .small).trace s₀ otherOpens = some s ∧
        (frontRuns .small).step s (.start (.portalAuth guestIp visitForm repeated)) = some s₁ ∧
          (frontRuns .small).trace s₁ bothPost = some s' ∧
            formGuest.Received .small (.redirect "/portal/success" none) s'.pool.shared := by
  have hother {i count : Nat} (hi : i ≠ 2) : ∀ l ∈ otherAdvances i count, ∀ s, FrontTurn.Spares formGuest 2 s l := by
    intro l hl s
    rw [List.eq_of_mem_replicate hl]
    exact FrontTurn.spares_of_apart hi apart_otherKnown
  have hguest {count : Nat} : ∀ l ∈ advances 2 count, ∀ s, FrontTurn.Spares formGuest 2 s l := by
    intro l hl s
    rw [List.eq_of_mem_replicate hl]
    exact FrontTurn.spares_of_serves serves_quiet
  have hbefore : ∀ l ∈ otherOpens, ∀ s, FrontTurn.Spares formGuest 2 s l :=
    List.forall_mem_cons.2 ⟨fun _ => show otherIp ≠ guestIp by decide, hother (by decide)⟩
  have hafter : ∀ l ∈ bothPost, ∀ s, FrontTurn.Spares formGuest 2 s l := by
    refine List.forall_mem_append.2 ⟨List.forall_mem_append.2
      ⟨List.forall_mem_append.2 ⟨hguest, hother (by decide)⟩, ?_⟩, hguest⟩
    exact List.forall_mem_cons.2 ⟨fun _ => ⟨by decide, by decide +kernel⟩, hother (by decide)⟩
  have hrun : ((house .small).trace newHouse twoTokens).any (fun w =>
      ((frontRuns .small).trace ⟨⟨.new FrontConfig.small.rateLimit 3600 0 w.shared, []⟩, []⟩ guestOpens).any fun s₀ =>
        ((frontRuns .small).trace s₀ otherOpens).any fun s =>
          ((frontRuns .small).step s (.start (.portalAuth guestIp visitForm repeated))).any fun s₁ =>
            ((frontRuns .small).trace s₁ bothPost).any fun s' =>
              (s₀.pool.threads.length = 1 ∧ (answerOf s₀ 0).isSome ∧ PageOpen s₀.pool.shared) ∧
                (s.pool.threads.length = 2 ∧ PageOpen s.pool.shared) ∧
                  answerOf s' 2 = some (.redirect "/portal/success" none)) = true := by decide +kernel
  obtain ⟨w, hw, hrun⟩ := (Option.any_eq_true _ _).1 hrun
  obtain ⟨s₀, hs₀, hrun⟩ := (Option.any_eq_true _ _).1 hrun
  obtain ⟨s, hs, hrun⟩ := (Option.any_eq_true _ _).1 hrun
  obtain ⟨s₁, hs₁, hrun⟩ := (Option.any_eq_true _ _).1 hrun
  obtain ⟨s', hs', hrun⟩ := (Option.any_eq_true _ _).1 hrun
  obtain ⟨⟨hlen, hdone, hopen₀⟩, ⟨hn, hopen⟩, hanswer⟩ := of_decide_eq_true hrun
  obtain ⟨t, ht, hend⟩ := answerOf_some hanswer
  have hidle : ∀ t ∈ s₀.pool.threads, ∃ a, t.rest = .done a := by
    intro t ht
    obtain ⟨x, hx⟩ := List.length_eq_one_iff.1 hlen
    obtain ⟨a, ha⟩ := Option.isSome_iff_exists.1 hdone
    obtain ⟨y, hy, hrest⟩ := answerOf_some ha
    rw [hx] at ht hy
    rw [List.mem_singleton.1 ht]
    exact ⟨a, Option.some.inj hy ▸ hrest⟩
  have waiting₀ := hopen₀.waiting
  refine ⟨w, s₀, s, s₁, s', hw, hs₀, hs, hs₁, hs', ?_⟩
  exact posted_code_lets_in hidle waiting₀.expected waiting₀.guest (Machine.path_trace_of hbefore hs)
    ⟨_, hopen.2.2.2, rfl, le_rfl⟩ hopen.roomy hopen.waiting.inTime (by decide +kernel) (by decide +kernel) hn hs₁
    (Machine.path_trace_of hafter hs') ht hend

end Didicafe
