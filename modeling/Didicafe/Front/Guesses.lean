/-
How many codes and passwords an address can try. A request looks a code up, or has a password verified, once for an
attempt that the limiter has counted and let pass, and the limiter lets no more than its maximum pass in a window; so
the number of tries is bounded by the time, whatever the order of the requests.
-/
import Didicafe.Front.Authority
import Didicafe.Lib.Tickets
import Didicafe.Limiter.Concurrent

namespace Didicafe

open Effect Runs

variable {c : FrontConfig} {s s' : FrontJournal c} {door : Door} {ip : IpAddr} {past : Past Access Access.Out}

/-! ## The price of a try -/

/-- The operation tells whether the secret of a form is right. -/
def Door.checks : Door → Access → Bool
  | .portal, .world (.sql (.getTokenByCode _)) => true
  | .login, .verifyPassword .. => true
  | _, _ => false

/-- The limiter has counted an attempt of the address, and let it pass. -/
def Door.passes (door : Door) (ip : IpAddr) : Sigma Access.Out → Bool
  | ⟨.limiter d (.record _ client), .ok .allowed⟩ => d = door && client = ip
  | _ => false

/-- The form that a request posts, and the address it comes from. -/
def FrontCall.attempt : FrontCall c → Option (Door × IpAddr)
  | .portalAuth ip _ _ => some (.portal, ip)
  | .loginSubmit ip _ _ _ => some (.login, ip)
  | _ => none

/-- The tries of one address at one form. -/
def tries (door : Door) (ip : IpAddr) (k : FrontCall c) : Tariff Access Access.Out where
  earns := door.passes ip
  spends op := k.attempt = some (door, ip) && door.checks op

def tariff (door : Door) (ip : IpAddr) : Tariff Access Access.Out := ⟨door.passes ip, door.checks⟩

theorem tries_of_attempt {k : FrontCall c} (h : k.attempt = some (door, ip)) : tries door ip k = tariff door ip := by
  unfold tries tariff
  simp [h]

/-! ## The handlers pay -/

section Keeps

variable {t : Tariff Access Access.Out}

/-- A call of the limiter earns when it lets the attempt pass. -/
theorem earns_checkAndRecord : (Front.limiter door (checkAndRecord ip)).Keeps possible (tariff door ip).guard
    (fun r past' => (tariff door ip).Saves past past' ∧
      (r = .ok .allowed → (tariff door ip).earned past < (tariff door ip).earned past')) past := by
  have free (op : LimiterOp) : (tariff door ip).spends (.limiter door op) = false := by cases door <;> rfl
  have keeps (past' : Past Access Access.Out) (op : LimiterOp) : (tariff door ip).guard past' (.limiter door op) := by
    unfold Tariff.guard
    rw [free]
    exact nofun
  have saves {past' : Past Access Access.Out} {op : LimiterOp} {r : Access.Out (.limiter door op)}
      (h : (tariff door ip).Saves past past') : (tariff door ip).Saves past (⟨.limiter door op, r⟩ :: past') :=
    h.trans (Tariff.saves_cons (free op))
  refine ⟨keeps _ _, fun now _ => ⟨keeps _ _, fun ban hban => ?_⟩⟩
  cases ban with
  | some result =>
    refine ⟨saves (saves .refl), fun hr => ?_⟩
    cases (hr : Except.ok result = .ok .allowed)
    exact absurd rfl (possible_checkBan hban)
  | none =>
    refine ⟨keeps _ _, fun _ _ => ⟨keeps _ _, fun result _ => ⟨saves (saves (saves (saves .refl))), fun hr => ?_⟩⟩⟩
    cases (hr : result = .ok .allowed)
    unfold Tariff.earned
    rw [List.countP_cons_of_pos (by simp [tariff, Door.passes])]
    exact Nat.lt_succ_of_le (Tariff.Saves.earned (saves (saves (saves .refl))))

theorem keeps_validate_saving {d : Door} {key submitted : String} :
    (Front.validate c d key submitted).Keeps possible (tariff door ip).guard
      (fun _ past' => (tariff door ip).Saves past past') past := by
  refine Tariff.keeps_of_saving ⟨?_, fun _ => trivial⟩
  cases door <;> rfl

/-- No code is looked up. -/
def NoLookup (op : Op) : Prop := Door.portal.checks (.world op) = false

theorem noLookup_of_serves {mac address : String} {token : Token} {past : Past Access Access.Out} {op : Op}
    (h : Serves mac address token past op) : NoLookup op := by
  cases h <;> rfl

theorem noLookup_migrateSession {tokenId : Int} {mac address : String} :
    Fallible.Uses NoLookup (migrateSession tokenId mac address) := by
  refine Fallible.Uses.bind (uses_sql rfl) fun session => ?_
  cases session with
  | none => trivial
  | some session =>
    refine Fallible.Uses.bind (Fallible.Uses.lift (uses_remainingSeconds (K := NoLookup) rfl _)) fun remaining => ?_
    split
    · trivial
    · refine Fallible.Uses.bind (Fallible.Uses.lift (uses_deauthorize rfl)) fun _ => ?_
      refine Fallible.Uses.bind (uses_sql rfl) fun _ => ?_
      exact Fallible.Uses.bind (uses_authorize rfl) fun _ => uses_sql rfl

/-- The lookup of the code takes a ticket, and nothing else after it does. -/
theorem pays_lookup {code mac address : String}
    (h : (tariff .portal ip).spent past < (tariff .portal ip).earned past) :
    (Front.world (Didicafe.portalAuth code mac address)).Keeps possible (tariff .portal ip).guard
      (fun _ _ => True) past := by
  have rest {α : Type} {p : Prog Op Op.Out α} {past : Past Access Access.Out}
      (hp : p.Uses NoLookup) :
      (Front.world p).Keeps possible (tariff .portal ip).guard (fun _ _ => True) past :=
    (Tariff.keeps_of_saving (Prog.uses_embed hp)).mono fun _ _ _ => trivial
  unfold Didicafe.portalAuth
  rw [Front.world_bind]
  refine Prog.Keeps.bind (Q := fun _ _ => True) ⟨fun _ => h, fun r _ => ?_⟩ fun r past _ => ?_
  · cases r <;> trivial
  · rcases r with e | token | token | _
    · trivial
    · refine rest (Prog.Uses.bind ?_ fun r => by cases r <;> trivial)
      exact (serves_createSession []).mono fun _ => noLookup_of_serves
    · exact rest (Prog.Uses.bind noLookup_migrateSession fun r => by cases r <;> trivial)
    · trivial

theorem pays_portalError {key mac : String} {draws : FrontDraws} : (Front.portalError c key mac draws).Keeps possible
    (tariff .portal ip).guard (fun _ _ => True) past := by
  refine (Tariff.keeps_of_saving (renews_portalError.mono fun op hop => ?_)).mono fun _ _ _ => trivial
  rcases hop with hop | rfl
  · unfold Renews at hop
    split at hop
    · rfl
    · rfl
    · cases hop
  · rfl

theorem pays_enterCode {code mac : String} {draws : FrontDraws}
    (h : (tariff .portal ip).spent past < (tariff .portal ip).earned past) :
    (Front.enterCode c ip code mac draws).Keeps possible (tariff .portal ip).guard (fun _ _ => True) past := by
  unfold Front.enterCode
  split
  · trivial
  · exact pays_portalError
  · refine (pays_lookup h).bind fun answer past₄ _ => ?_
    cases answer with
    | internal e => trivial
    | success => trivial
    | error key => exact pays_portalError

theorem pays_portalAuth {form : AuthForm} {draws : FrontDraws} :
    (Front.portalAuth c ip form draws).Keeps possible (tariff .portal ip).guard (fun _ _ => True) [] := by
  have found : (Front.clientInfo c ip).Uses fun op => (tariff .portal ip).spends op = false :=
    Prog.Uses.bind (uses_lookupMac ⟨rfl, rfl, rfl⟩) fun _ => trivial
  refine (Tariff.keeps_of_saving found).bind fun client past₁ h₁ => ?_
  cases client with
  | error e => trivial
  | ok mac =>
    refine keeps_validate_saving.bind fun own past₂ h₂ => ?_
    split
    · exact pays_portalError
    refine earns_checkAndRecord.bind fun verdict past₃ ⟨h₃, hearned⟩ => ?_
    have saved := (h₁.trans h₂).trans h₃
    rcases verdict with e | _ | _ | _
    · trivial
    · refine pays_enterCode ?_
      rw [saved.spent]
      exact Nat.zero_lt_of_lt (hearned rfl)
    · trivial
    · trivial

/-! ### Passwords -/

/-- No password is verified. -/
abbrev NoVerification (op : Access) : Prop := Door.login.checks op = false

theorem noVerification_world {α : Type} (p : Prog Op Op.Out α) : (Front.world p).Uses NoVerification :=
  Prog.uses_embed (Prog.uses_of_forall (fun _ => rfl) p)

theorem noVerification_loginError {status : Nat} {retryAfter : Option Nat} {error : String} {portal : PortalSection}
    {draws : FrontDraws} : (Front.loginError c status retryAfter error ip portal draws).Uses NoVerification := by
  refine renews_loginError.mono fun op hop => ?_
  unfold Renews at hop
  split at hop
  · rfl
  · rfl
  · cases hop

/-- The verification takes a ticket, and nothing else does. -/
theorem pays_loginSubmit {header : Option String} {form : LoginForm} {draws : FrontDraws} :
    (Front.loginSubmit c ip header form draws).Keeps possible (tariff .login ip).guard (fun _ _ => True) [] := by
  have rest {p : Front Answer} {past : Past Access Access.Out} (hp : p.Uses NoVerification) :
      p.Keeps possible (tariff .login ip).guard (fun _ _ => True) past :=
    (Tariff.keeps_of_saving hp).mono fun _ _ _ => trivial
  refine (Tariff.keeps_of_saving (noVerification_world _)).bind fun portal past₁ h₁ => ?_
  refine keeps_validate_saving.bind fun own past₂ h₂ => ?_
  split
  · exact rest noVerification_loginError
  refine earns_checkAndRecord.bind fun verdict past₃ ⟨h₃, hearned⟩ => ?_
  have saved := (h₁.trans h₂).trans h₃
  rcases verdict with e | _ | _ | retryAfterSeconds
  · trivial
  · show Prog.Keeps possible _ _ (ite _ _ _) past₃
    split
    · exact rest noVerification_loginError
    · have hlt : (tariff .login ip).spent past₃ < (tariff .login ip).earned past₃ := by
        rw [saved.spent]
        exact Nat.zero_lt_of_lt (hearned rfl)
      refine ⟨fun _ => hlt, fun passwordOk _ => rest ?_⟩
      show Prog.Uses _ (ite _ _ _)
      split
      · exact uses_logIn rfl (fun _ => rfl) ⟨rfl, rfl, rfl⟩ fun _ => rfl
      · exact (noVerification_world _).bind fun _ => noVerification_loginError
  · exact rest noVerification_loginError
  · exact rest noVerification_loginError

/-- Every request pays for its tries. -/
theorem pays_program (door : Door) (ip : IpAddr) (k : FrontCall c) :
    k.program.Keeps possible (tries door ip k).guard (fun _ _ => True) [] := by
  by_cases hk : k.attempt = some (door, ip)
  · rw [tries_of_attempt hk]
    cases k with
    | portalAuth => cases hk; exact pays_portalAuth
    | loginSubmit => cases hk; exact pays_loginSubmit
    | _ => cases hk
  · refine (Tariff.keeps_of_saving (Prog.uses_of_forall (fun op => ?_) _)).mono fun _ _ _ => trivial
    simp [tries, hk]

end Keeps

/-! ## The attempts of a run -/

/-- The recording step of the limiter, if the event is one. -/
def recording (door : Door) : FrontEvent c → Option Recording
  | ⟨_, _, before, .limiter d (.record now ip), result⟩ =>
    if d = door then some ⟨ip, now, before.clock, result⟩ else none
  | _ => none

/-- A form's limiter, with its recording steps so far. -/
def serving (door : Door) (s : FrontJournal c) : Serving :=
  ⟨⟨(AppState.limiterPart door).get s.pool.shared, []⟩, s.log.filterMap (recording door)⟩

/-- The limiter of a form loses nothing that was recorded less than a window ago. -/
def LosesNoAttempt (c : FrontConfig) (s : FrontJournal c) : FrontTurn c → Prop
  | .advance i _ =>
    match s.pool.pending i with
    | some (_, .limiter door op) => LosesNothing c.rateLimit (serving door s) op
    | _ => True
  | _ => True

/-- A try at the secret of a form, from an address. -/
def Tries (door : Door) (ip : IpAddr) (e : FrontEvent c) : Bool := (tries door ip e.tag).spends e.op

theorem passes_recording (e : FrontEvent c) :
    door.passes ip ⟨e.op, e.answer⟩ = ((recording door e).map fun x => decide (x.ip = ip ∧ x.allowed)).getD false := by
  obtain ⟨thread, tag, before, op, answer⟩ := e
  cases op with
  | limiter d op =>
    cases op with
    | record now client =>
      by_cases hd : d = door
      · rcases answer with err | _ | _ | _ <;> simp [Door.passes, recording, Recording.allowed, hd]
      · rcases answer with err | _ | _ | _ <;> simp [Door.passes, recording, hd]
    | _ => rfl
  | _ => rfl

/-- No more is tried than the limiter has let pass. -/
theorem countP_tries_le {ok : FrontJournal c → FrontTurn c → Prop} {init : AppState → Prop}
    (h : Reach ((frontDesk c).machine init) ok s) (door : Door) (ip : IpAddr) :
    s.log.countP (Tries door ip) ≤ (serving door s).log.countP fun x => x.ip = ip ∧ x.allowed := by
  have follows := Workshop.follows_of_reach possible_exec (pays_program door ip) h
  have tags (e) (he : e ∈ s.log) (e') (he' : e' ∈ s.log) (hthread : e.thread = e'.thread) : e.tag = e'.tag := by
    obtain ⟨t, ht, htag⟩ := follows.tags e he
    obtain ⟨t', ht', htag'⟩ := follows.tags e' he'
    rw [hthread, ht'] at ht
    cases ht
    rw [← htag, htag']
  refine (spent_le_earned tags follows.kept).trans (le_of_eq ?_)
  unfold serving
  rw [List.countP_filterMap]
  exact congrArg (List.countP · s.log) (funext passes_recording)

/-! ### One step of a limiter -/

theorem gateExec_clock (op : LimiterOp) (g : Gate) : (Gate.exec op g).2.clock = g.clock := by
  cases op <;> rfl

/-- What is no operation of the form's limiter leaves it alone. -/
theorem limiterPart_exec {env : Surroundings} {op : Access} {st : AppState} (h : ∀ op', op ≠ .limiter door op') :
    (AppState.limiterPart door).get (AppState.exec env op st).2 = (AppState.limiterPart door).get st := by
  cases op with
  | limiter d op =>
    have hclock : (Gate.exec op ((AppState.limiterPart d).get st)).2.clock = ((AppState.limiterPart d).get st).clock :=
      gateExec_clock ..
    cases d <;> cases door
    · exact absurd rfl (h op)
    · exact congrArg (fun t => (⟨t, st.adminRateLimiter⟩ : Gate)) hclock
    · exact congrArg (fun t => (⟨t, st.rateLimiter⟩ : Gate)) hclock
    · exact absurd rfl (h op)
  | sessions op => cases op <;> cases door <;> rfl
  | csrf d op => cases d <;> cases op <;> cases door <;> rfl
  | world op => cases door <;> rfl
  | _ => rfl

/-- The limiter of a form counts since a moment as it should. -/
structure Metered (c : FrontConfig) (start : Nat) (door : Door) (s : FrontJournal c) : Prop where
  watch : Watch c.rateLimit (serving door s)
  started : start ≤ s.pool.shared.clock
  since : ∀ x ∈ (serving door s).log, start ≤ x.clock

theorem serving_clock (door : Door) (s : FrontJournal c) : (serving door s).clock = s.pool.shared.clock := by
  cases door <;> rfl

/-- What a turn does to the limiter of a form: time passes, or one of its sections is run. -/
theorem serving_step {l : FrontTurn c} (hs : (frontDesk c).step s l = some s') (door : Door) :
    ((serving door s').log = (serving door s).log ∧ (serving door s').limiter = (serving door s).limiter ∧
      (serving door s).clock ≤ (serving door s').clock) ∨
    ∃ i how k op, l = .advance i how ∧ s.pool.pending i = some (k, .limiter door op) ∧
      (serving door s').clock = (serving door s).clock ∧
      ((∃ now, op = .sweepBans now ∧ (serving door s').log = (serving door s).log ∧
        (serving door s').limiter = (serving door s).limiter.sweepBans now) ∨
      ∃ now ip, op = .record now ip ∧
        (serving door s').log =
          ⟨ip, now, (serving door s).clock, ((serving door s).limiter.record now ip).1⟩ :: (serving door s).log ∧
        (serving door s').limiter = ((serving door s).limiter.record now ip).2) := by
  rcases Workshop.step_cases hs with ⟨k, rfl, rfl⟩ | ⟨i, how, k, op, next, rfl, ht, rfl⟩ | ⟨m, rfl, rfl⟩
  · exact .inl ⟨rfl, rfl, le_rfl⟩
  · have hpending : s.pool.pending i = some (k, op) := by rw [Pool.pending, ht]; rfl
    by_cases hop : ∃ op', op = .limiter door op'
    · obtain ⟨op, rfl⟩ := hop
      cases op with
      | now | checkBan => cases door <;> exact .inl ⟨rfl, rfl, le_rfl⟩
      | sweepBans now =>
        refine .inr ⟨i, how, k, _, rfl, hpending, ?_, .inl ⟨now, rfl, ?_, ?_⟩⟩
        · cases door <;> rfl
        · cases door <;> rfl
        · cases door <;> rfl
      | record now ip =>
        refine .inr ⟨i, how, k, _, rfl, hpending, ?_, .inr ⟨now, ip, rfl, ?_, ?_⟩⟩
        · cases door <;> rfl
        · cases door <;> rfl
        · cases door <;> rfl
    · have hgate : (AppState.limiterPart door).get (AppState.exec how op s.pool.shared).2 =
          (AppState.limiterPart door).get s.pool.shared := limiterPart_exec fun op' h => hop ⟨op', h⟩
      have hnone : recording door (⟨i, k, s.pool.shared, op, (AppState.exec how op s.pool.shared).1⟩ : FrontEvent c) =
          none := by
        cases op with
        | limiter d op =>
          cases op with
          | record => exact if_neg fun hd => hop ⟨_, by rw [hd]⟩
          | _ => rfl
        | _ => rfl
      refine .inl ⟨List.filterMap_cons_none hnone, congrArg Gate.limiter hgate, ?_⟩
      exact (congrArg Gate.clock hgate).ge
  · refine .inl ⟨rfl, ?_, ?_⟩
    · cases m <;> cases door <;> rfl
    · rw [serving_clock, serving_clock]
      cases m
      · exact Nat.le_add_right ..
      · exact le_rfl

theorem Metered.step {start : Nat} {l : FrontTurn c} (h : Metered c start door s)
    (hle : c.rateLimit.authWindowSeconds ≤ c.rateLimit.banDurationSeconds)
    (hpos : 0 < c.rateLimit.banAfterAttempts.toNat) (hok : LosesNoAttempt c s l)
    (hs : (frontDesk c).step s l = some s') : Metered c start door s' := by
  have hstarted : start ≤ (serving door s).clock := by rw [serving_clock]; exact h.started
  rcases serving_step hs door with ⟨hlog, hlim, hclock⟩ | ⟨i, how, k, op, rfl, hp, hclock, hcase⟩
  · exact ⟨h.watch.later hlog hlim hclock, by rw [← serving_clock door]; omega, by rw [hlog]; exact h.since⟩
  · have hlose : LosesNothing c.rateLimit (serving door s) op := by
      unfold LosesNoAttempt at hok
      simpa only [hp] using hok
    have started : start ≤ s'.pool.shared.clock := by rw [← serving_clock door, hclock]; exact hstarted
    rcases hcase with ⟨now, rfl, hlog, hlim⟩ | ⟨now, ip, rfl, hlog, hlim⟩
    · exact ⟨h.watch.sweep hlog hlim hclock hlose, started, by rw [hlog]; exact h.since⟩
    · refine ⟨h.watch.record hle hpos hlog hlim hclock hlose, started, fun x hx => ?_⟩
      rw [hlog] at hx
      rcases List.mem_cons.1 hx with rfl | hx
      · exact hstarted
      · exact h.since x hx

/-! ## Runs -/

/-- The runs of the front desk from a moment on. -/
abbrev frontRunsFrom (c : FrontConfig) (start : Nat) (world : World) : Machine (FrontJournal c) (FrontTurn c) :=
  (frontDesk c).machine (· = .new c.rateLimit c.sessionTimeoutSeconds start world)

theorem metered_of_reach {start : Nat} {world : World} (hc : c.rateLimit.validate = .ok ())
    (hle : c.rateLimit.authWindowSeconds ≤ c.rateLimit.banDurationSeconds)
    (h : Reach (frontRunsFrom c start world) (LosesNoAttempt c) s) (door : Door) : Metered c start door s := by
  obtain ⟨hmax, -, hban, -⟩ := RateLimitConfig.validate_ok hc
  have hpos := hmax.trans_le hban
  apply h.invariant (I := Metered c start door)
  · rintro s ⟨hstate, -, hlog⟩
    have hempty : (serving door s).log = [] := by
      unfold serving
      rw [hlog]
      rfl
    have hnew : (serving door s).limiter = .new c.rateLimit := by
      unfold serving
      rw [hstate]
      cases door <;> rfl
    refine ⟨⟨?_, ?_, ?_, ?_, ?_, ?_, ?_⟩, by rw [hstate]; exact le_rfl, by rw [hempty]; exact nofun⟩
    · rw [hnew]; rfl
    · rw [hnew]; exact fun _ _ => hpos
    · rw [hempty]; exact .nil
    · rw [hempty]; exact nofun
    · rw [hempty]; exact nofun
    · unfold Serving.readings Serving.sinceBan
      rw [hempty]
      exact fun _ _ => List.nil_sublist _
    · rw [hempty]; exact fun _ _ => Nat.zero_le _
  · exact fun s l s' hi hok hs => hi.step hle hpos hok hs

/-- In every run, whatever order the requests take turns in and whatever else happens to the database, as long as the
limiters lose no attempt of less than a window ago: no address has more codes looked up, or more passwords verified,
than the maximum of attempts for each window that has begun since the start. -/
theorem tries_bounded {start : Nat} {world : World} (hc : c.rateLimit.validate = .ok ())
    (hle : c.rateLimit.authWindowSeconds ≤ c.rateLimit.banDurationSeconds)
    (h : Reach (frontRunsFrom c start world) (LosesNoAttempt c) s) (door : Door) (ip : IpAddr) :
    s.log.countP (Tries door ip) ≤
      ((s.pool.shared.clock - start) / fromSecs c.rateLimit.authWindowSeconds + 1) *
        c.rateLimit.maxAuthAttempts.toNat := by
  have metered := metered_of_reach hc hle h door
  have hwindow : 0 < fromSecs c.rateLimit.authWindowSeconds :=
    Nat.mul_pos (RateLimitConfig.validate_ok hc).2.1 (by decide)
  refine (countP_tries_le h door ip).trans ?_
  have bounded := countP_le_of_windows (p := fun x => x.ip = ip ∧ x.allowed) (l := (serving door s).log)
    (w := fromSecs c.rateLimit.authWindowSeconds) (m := c.rateLimit.maxAuthAttempts.toNat) Recording.clock start
    (fun a => ?_) ((s.pool.shared.clock - start) / fromSecs c.rateLimit.authWindowSeconds + 1)
  · refine le_trans (le_of_eq (List.countP_congr fun x hx => ?_)) bounded
    -- every step is in one of the windows
    have hpast := metered.watch.past x hx
    rw [serving_clock] at hpast
    have hin : x.clock < start +
        ((s.pool.shared.clock - start) / fromSecs c.rateLimit.authWindowSeconds + 1) *
          fromSecs c.rateLimit.authWindowSeconds := by
      have hlt := Nat.lt_div_mul_add (a := s.pool.shared.clock - start) hwindow
      have hsince := metered.since x hx
      rw [Nat.succ_mul]
      omega
    simp [metered.since x hx, hin]
  · have hbound := metered.watch.bounded ip a
    refine le_trans (le_of_eq (List.countP_congr fun x _ => ?_)) hbound
    simp [and_assoc]

instance (c : RateLimitConfig) (s : Serving) : DecidablePred (LosesNothing c s)
  | .sweepBans now => inferInstanceAs (Decidable (∀ e ∈ s.log, e.isBan → e.Recent c s.clock →
      now < e.read + fromSecs c.banDurationSeconds))
  | .record now ip => inferInstanceAs (Decidable ((∀ banUntil ∈ s.limiter.bans.lookup ip, banUntil ≤ now) ∧
      ∀ e ∈ s.log, e.Recent c s.clock → e.ip = ip ∨ s.limiter.SweepDue → now - e.read < fromSecs c.authWindowSeconds))
  | .now | .checkBan .. => isTrue trivial

instance (c : FrontConfig) (s : FrontJournal c) : DecidablePred (LosesNoAttempt c s) := fun l => by
  unfold LosesNoAttempt
  split <;> first | infer_instance | (split <;> infer_instance)

theorem tries_bounded_visit : ∃ s : FrontJournal .small, s.log.countP (Tries .portal guestIp) = 1 ∧
    s.log.countP (Tries .portal guestIp) ≤ (s.pool.shared.clock / fromSecs 60 + 1) * 5 := by
  have hlast : ((frontRunsFrom .small 0 World.opening).trace smallOpening visit).any
      (fun s => s.log.countP (Tries .portal guestIp) = 1) = true := by decide +kernel
  obtain ⟨s, hs, hcount⟩ := (Option.any_eq_true _ _).1 hlast
  have start : Reach (frontRunsFrom .small 0 World.opening) (LosesNoAttempt .small) smallOpening :=
    .start ⟨rfl, rfl, rfl⟩
  have reach := Machine.reach_along start (t := visit) (by decide +kernel) hs
  exact ⟨s, of_decide_eq_true hcount, tries_bounded rfl (by decide) reach .portal guestIp⟩

end Didicafe
