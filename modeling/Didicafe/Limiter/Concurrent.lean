/-
Calls of `check_and_record` in any number at once, interleaved section by section. The ban check and the recording
hold different locks, and a ban clears the attempts of its address, so a call that has passed the check before the ban
records in a fresh window; as long as no call does that, and none of them drops what another one recorded less than a
window ago, no address gets more than its maximum of calls allowed within a window.
-/
import Didicafe.Lib.Runs
import Didicafe.Limiter.Sections

namespace Didicafe

open Effect Runs RateLimiter

/-- A recording step that was run: the reading of the clock it was made with, the time it was made at, its result. -/
structure Recording where
  ip : IpAddr
  read : Nat
  clock : Nat
  result : Except Err RateLimitResult

def Recording.allowed (e : Recording) : Bool :=
  match e.result with
  | .ok .allowed => true
  | _ => false

/-- The step started a ban. -/
def Recording.isBan (e : Recording) : Bool :=
  match e.result with
  | .ok (.banned _) => true
  | _ => false

/-- The calls under way, and the recording steps so far, the latest first. -/
structure Serving where
  pool : Pool IpAddr LimiterOp LimiterOp.Out (Except Err RateLimitResult) Gate
  log : List Recording

namespace Serving

def limiter (s : Serving) : RateLimiter := s.pool.shared.limiter

def clock (s : Serving) : Nat := s.pool.shared.clock

/-- What call `i` adds to the recording steps. -/
def note (s : Serving) (i : Nat) : List Recording :=
  match s.pool.pending i with
  | some (_, .record now ip) => [⟨ip, now, s.clock, (s.limiter.record now ip).1⟩]
  | _ => []

end Serving

inductive Move where
  | call (ip : IpAddr)
  | advance (i : Nat)
  | elapse (nanos : Nat)

def Serving.step (s : Serving) : Move → Option Serving
  | .call ip => some { s with pool := s.pool.spawn ⟨ip, checkAndRecord ip⟩ }
  | .advance i => (s.pool.advance Gate.exec i).map fun pool => ⟨pool, s.note i ++ s.log⟩
  | .elapse nanos => some { s with pool := { s.pool with shared := { s.pool.shared with clock := s.clock + nanos } } }

/-- A new limiter, at any time. -/
def limiterCalls (c : RateLimitConfig) : Machine Serving Move where
  init s := ∃ t, s = ⟨⟨⟨t, .new c⟩, []⟩, []⟩
  step := Serving.step

/-- Of the calls of `ip` that recorded within a window from `a` on, no more than the maximum were allowed. -/
def Bounded (c : RateLimitConfig) (log : List Recording) : Prop :=
  ∀ ip a, log.countP (fun e => e.ip = ip ∧ e.allowed ∧ a ≤ e.clock ∧ e.clock < a + fromSecs c.authWindowSeconds) ≤
    c.maxAuthAttempts.toNat

/-- The recording step was run less than a window ago. -/
def Recording.Recent (c : RateLimitConfig) (clock : Nat) (e : Recording) : Prop :=
  clock - e.clock < fromSecs c.authWindowSeconds

instance (c : RateLimitConfig) (clock : Nat) : DecidablePred (Recording.Recent c clock) :=
  fun e => by unfold Recording.Recent; infer_instance

/-- The next operation of a call loses nothing that was recorded less than a window ago: a sweep removes no ban that
was started then, and a recording is made with no ban of its address in force and drops no attempt of then. -/
def LosesNothing (c : RateLimitConfig) (s : Serving) : LimiterOp → Prop
  | .sweepBans now => ∀ e ∈ s.log, e.isBan → e.Recent c s.clock → now < e.read + fromSecs c.banDurationSeconds
  | .record now ip => (∀ banUntil, s.limiter.bans.lookup ip = some banUntil → banUntil ≤ now) ∧
    ∀ e ∈ s.log, e.Recent c s.clock → e.ip = ip ∨ s.limiter.SweepDue → now - e.read < fromSecs c.authWindowSeconds
  | .now | .checkBan .. => True

/-- The same of a step. -/
def KeepsWindow (c : RateLimitConfig) (s : Serving) : Move → Prop
  | .advance i => ∀ x, s.pool.pending i = some x → LosesNothing c s x.2
  | .call _ | .elapse _ => True

instance (c : RateLimitConfig) (s : Serving) : DecidablePred (LosesNothing c s) := fun
  | .sweepBans _ => inferInstanceAs (Decidable (∀ e ∈ s.log, _ → _ → _))
  | .record now ip => inferInstanceAs (Decidable ((∀ banUntil ∈ s.limiter.bans.lookup ip, banUntil ≤ now) ∧ _))
  | .now | .checkBan .. => isTrue trivial

instance (c : RateLimitConfig) (s : Serving) : DecidablePred (KeepsWindow c s) := fun
  | .advance i => inferInstanceAs (Decidable (∀ x ∈ s.pool.pending i, LosesNothing c s x.2))
  | .call _ | .elapse _ => isTrue trivial

/-! ## The invariant -/

variable {c : RateLimitConfig} {s s' : Serving} {ip : IpAddr} {now : Nat}

namespace Serving

/-- The recording steps of `ip` since its last ban. -/
def sinceBan (s : Serving) (ip : IpAddr) : List Recording :=
  (s.log.filter (·.ip = ip)).takeWhile (!·.isBan)

/-- The readings of those among them that are recent, the latest first. -/
def readings (c : RateLimitConfig) (s : Serving) (ip : IpAddr) : List Nat :=
  ((s.sinceBan ip).filter (·.Recent c s.clock)).map (·.read)

end Serving

section Readings

variable {e : Recording}

/-! The readings after one more recording step. -/

theorem readings_of_ne (hlog : s'.log = e :: s.log) (hclock : s'.clock = s.clock) (hip : e.ip ≠ ip) :
    s'.readings c ip = s.readings c ip := by
  unfold Serving.readings Serving.sinceBan
  rw [hlog, hclock, List.filter_cons_of_neg (by simpa using hip)]

theorem readings_of_isBan (hlog : s'.log = e :: s.log) (hb : e.isBan) : s'.readings c e.ip = [] := by
  unfold Serving.readings Serving.sinceBan
  rw [hlog, List.filter_cons_of_pos (by simp), List.takeWhile_cons_of_neg (by simp [hb])]
  rfl

theorem readings_sublist (hlog : s'.log = e :: s.log) (hclock : s'.clock = s.clock) (hb : ¬ e.isBan) :
    (s'.readings c e.ip).Sublist (e.read :: s.readings c e.ip) := by
  unfold Serving.readings Serving.sinceBan
  rw [hlog, hclock, List.filter_cons_of_pos (by simp), List.takeWhile_cons_of_pos (by simp [hb]), List.filter_cons]
  split
  · exact .refl _
  · exact .cons _ (.refl _)

end Readings

/-- The log in its order of time, the bans of the last window in the map, and the recent readings of each address
among its attempts. -/
structure Watch (c : RateLimitConfig) (s : Serving) : Prop where
  config : s.limiter.config = c
  short : s.limiter.poisoned = false → s.limiter.Short
  sorted : s.log.Pairwise fun e e' => e'.clock ≤ e.clock
  past : ∀ e ∈ s.log, e.clock ≤ s.clock
  banned : ∀ e ∈ s.log, e.isBan → e.Recent c s.clock →
    s.limiter.bans.lookup e.ip = some (e.read + fromSecs c.banDurationSeconds)
  kept : s.limiter.poisoned = false → ∀ ip, (s.readings c ip).reverse.Sublist (s.limiter.entry ip)
  bounded : Bounded c s.log

/-- In an ordered log without recent bans, all recent steps are since the last ban. -/
theorem filter_takeWhile {p q : Recording → Bool} {log : List Recording}
    (hp : ∀ e ∈ log, ∀ e' ∈ log, e'.clock ≤ e.clock → p e' → p e)
    (hsorted : log.Pairwise fun e e' => e'.clock ≤ e.clock) (hq : ∀ e ∈ log, p e → q e) :
    (log.takeWhile q).filter p = log.filter p := by
  induction log with
  | nil => rfl
  | cons e log ih =>
    obtain ⟨hle, hsorted⟩ := List.pairwise_cons.1 hsorted
    by_cases he : q e
    · rw [List.takeWhile_cons_of_pos he, List.filter_cons, List.filter_cons,
        ih (fun a ha b hb => hp a (.tail _ ha) b (.tail _ hb)) hsorted fun a ha => hq a (.tail _ ha)]
    · rw [List.takeWhile_cons_of_neg he, List.filter_nil, eq_comm, List.filter_eq_nil_iff]
      -- the head is not recent, and the rest is older
      intro a ha hpa
      refine he (hq e (.head _) ?_)
      rcases List.mem_cons.1 ha with rfl | h
      · exact hpa
      · exact hp e (.head _) a ha (hle a h) hpa

/-! ## Steps -/

theorem Serving.step_cases {m : Move} (h : s.step m = some s') :
    (s'.log = s.log ∧ s'.limiter = s.limiter ∧ s.clock ≤ s'.clock) ∨
    ∃ i tag op, m = .advance i ∧ s.pool.pending i = some (tag, op) ∧ s'.clock = s.clock ∧
      ((∃ now, op = .sweepBans now ∧ s'.log = s.log ∧ s'.limiter = s.limiter.sweepBans now) ∨
      ∃ now ip, op = .record now ip ∧ s'.log = ⟨ip, now, s.clock, (s.limiter.record now ip).1⟩ :: s.log ∧
        s'.limiter = (s.limiter.record now ip).2) := by
  cases m with
  | call ip => cases h; exact .inl ⟨rfl, rfl, le_rfl⟩
  | elapse nanos => cases h; exact .inl ⟨rfl, rfl, Nat.le_add_right ..⟩
  | advance i =>
    obtain ⟨pool, hadv, rfl⟩ := Option.map_eq_some_iff.1 h
    obtain ⟨tag, op, next, -, hp, rfl⟩ := Pool.advance_call hadv
    have hnote (log : List Recording) (hl : s.note i = log) : s.note i ++ s.log = log ++ s.log := by rw [hl]
    cases op with
    | now | checkBan =>
      refine .inl ⟨hnote [] ?_, rfl, le_rfl⟩
      rw [Serving.note, hp]
    | sweepBans now =>
      refine .inr ⟨i, _, _, rfl, hp, rfl, .inl ⟨now, rfl, hnote [] ?_, rfl⟩⟩
      rw [Serving.note, hp]
    | record now ip =>
      refine .inr ⟨i, _, _, rfl, hp, rfl, .inr ⟨now, ip, rfl, hnote [_] ?_, rfl⟩⟩
      rw [Serving.note, hp]

/-- The number of calls allowed grows only by a call that is allowed. -/
theorem Bounded.cons {log : List Recording} {e : Recording} (h : Bounded c log)
    (hn : e.allowed → ∀ a ≤ e.clock, e.clock < a + fromSecs c.authWindowSeconds →
      log.countP (fun e' => e'.ip = e.ip ∧ e'.allowed ∧ a ≤ e'.clock ∧ e'.clock < a + fromSecs c.authWindowSeconds) <
        c.maxAuthAttempts.toNat) : Bounded c (e :: log) := by
  intro ip a
  rw [List.countP_cons]
  split
  · rename_i he
    obtain ⟨rfl, hal, ha, hb⟩ := of_decide_eq_true he
    exact hn hal a ha hb
  · exact h ip a

namespace Watch

/-- Nothing but time passes. -/
theorem later (h : Watch c s) (hlog : s'.log = s.log) (hlim : s'.limiter = s.limiter) (hle : s.clock ≤ s'.clock) :
    Watch c s' := by
  have recent {e : Recording} (he : e.Recent c s'.clock) : e.Recent c s.clock := by
    unfold Recording.Recent at he ⊢
    omega
  constructor
  case config => rw [hlim]; exact h.config
  case short => rw [hlim]; exact h.short
  case sorted => rw [hlog]; exact h.sorted
  case past => rw [hlog]; exact fun e he => (h.past e he).trans hle
  case banned => rw [hlog, hlim]; exact fun e he hb hr => h.banned e he hb (recent hr)
  case kept =>
    intro hp ip
    rw [hlim] at hp ⊢
    refine List.Sublist.trans (List.reverse_sublist.2 (List.Sublist.map _ ?_)) (h.kept hp ip)
    unfold Serving.sinceBan
    rw [hlog]
    exact List.monotone_filter_right _ fun e => by simpa using recent
  case bounded => rw [hlog]; exact h.bounded

/-- A sweep that removes no recent ban. -/
theorem sweep (h : Watch c s) (hlog : s'.log = s.log) (hlim : s'.limiter = s.limiter.sweepBans now)
    (hclock : s'.clock = s.clock) (hok : LosesNothing c s (.sweepBans now)) : Watch c s' := by
  have recent {e : Recording} : e.Recent c s'.clock ↔ e.Recent c s.clock := by rw [hclock]
  constructor
  case config => rw [hlim]; exact h.config
  case short => rw [hlim]; exact h.short
  case sorted => rw [hlog]; exact h.sorted
  case past => rw [hlog, hclock]; exact h.past
  case banned =>
    rw [hlog, hlim]
    intro e he hb hr
    have hr := recent.1 hr
    unfold RateLimiter.sweepBans
    rw [HashMap.lookup_retain, h.banned e he hb hr, Option.bind_some, if_pos (hok e he hb hr)]
  case kept =>
    rw [hlim]
    intro hp ip
    unfold Serving.readings Serving.sinceBan
    rw [hlog, hclock]
    exact h.kept hp ip
  case bounded => rw [hlog]; exact h.bounded

/-- The recent steps of an address whose bans are all older are its recent steps since the last ban. -/
theorem filter_sinceBan (h : Watch c s) (hn : ∀ e ∈ s.log, e.ip = ip → e.Recent c s.clock → ¬ e.isBan) :
    (s.sinceBan ip).filter (·.Recent c s.clock) = (s.log.filter (·.ip = ip)).filter (·.Recent c s.clock) := by
  apply filter_takeWhile
  case hp =>
    intro e _ e' _ hle he
    have he := of_decide_eq_true he
    apply decide_eq_true
    unfold Recording.Recent at he ⊢
    omega
  case hsorted => exact h.sorted.filter _
  case hq =>
    intro e he hr
    obtain ⟨he, hip⟩ := List.mem_filter.1 he
    simpa using hn e he (of_decide_eq_true hip) (of_decide_eq_true hr)

/-- A recording made as it should be finds no recent ban of its address. -/
theorem not_isBan (h : Watch c s) (hle : c.authWindowSeconds ≤ c.banDurationSeconds)
    (hok : LosesNothing c s (.record now ip)) : ∀ e ∈ s.log, e.ip = ip → e.Recent c s.clock → ¬ e.isBan := by
  intro e he hip hr hb
  have hban := h.banned e he hb hr
  rw [hip] at hban
  -- the ban is over, although it lasts a window and was started less than one before
  have h₁ := hok.1 _ hban
  have h₂ := hok.2 e he hr (.inl hip)
  have h₃ : fromSecs c.authWindowSeconds ≤ fromSecs c.banDurationSeconds :=
    Nat.mul_le_mul_right _ (UInt64.le_iff_toNat_le.1 hle)
  omega

/-- The readings of the last window survive the pruning. -/
theorem readings_young (h : Watch c s) (hp : s.limiter.poisoned = false)
    (hok : ∀ e ∈ s.log, e.ip = ip → e.Recent c s.clock → now - e.read < fromSecs c.authWindowSeconds) :
    (s.readings c ip).reverse.Sublist (young s.limiter.window now (s.limiter.entry ip)) := by
  have hsub := (h.kept hp ip).filter fun t => now - t < s.limiter.window
  rwa [List.filter_eq_self.2] at hsub
  intro t ht
  obtain ⟨e, he, rfl⟩ := List.mem_map.1 (List.mem_reverse.1 ht)
  obtain ⟨he, hr⟩ := List.mem_filter.1 he
  obtain ⟨he, hip⟩ := List.mem_filter.1 ((List.takeWhile_sublist _).mem he)
  apply decide_eq_true
  unfold RateLimiter.window
  rw [h.config]
  exact hok e he (of_decide_eq_true hip) (of_decide_eq_true hr)

/-- The attempts of another address survive the recording. -/
theorem readings_put_of_ne (h : Watch c s) (hp : s.limiter.poisoned = false) (hok : LosesNothing c s (.record now ip))
    {ip' : IpAddr} (hip : ip' ≠ ip) (ts : List Nat) :
    (s.readings c ip').reverse.Sublist ((s.limiter.put now ip ts).entry ip') := by
  rw [entry_put, if_neg hip]
  rcases s.limiter.swept_cases now ip' with hs | ⟨hdue, hs⟩
  · rw [hs]; exact h.kept hp ip'
  · rw [hs]; exact h.readings_young hp fun e he _ hr => hok.2 e he hr (.inr hdue)

/-- The log stays ordered. -/
theorem ordered_cons (h : Watch c s) {e : Recording} (he : e.clock = s.clock) :
    ((e :: s.log).Pairwise fun e e' => e'.clock ≤ e.clock) ∧ ∀ e' ∈ e :: s.log, e'.clock ≤ s.clock := by
  constructor
  · exact List.pairwise_cons.2 ⟨fun e' h' => he ▸ h.past e' h', h.sorted⟩
  · rintro e' (_ | ⟨_, h'⟩)
    · exact he.le
    · exact h.past e' h'

/-- A recording that panics: the lock is poisoned from then on. -/
theorem fail (h : Watch c s) {e : Recording} {err : Err} (hlog : s'.log = e :: s.log) (he : e.clock = s.clock)
    (hres : e.result = .error err) (hclock : s'.clock = s.clock) (hp : s'.limiter.poisoned = true)
    (hconf : s'.limiter.config = c) (hbans : s'.limiter.bans = s.limiter.bans) : Watch c s' := by
  obtain ⟨sorted, past⟩ := h.ordered_cons he
  refine ⟨hconf, by simp [hp], hlog ▸ sorted, by rw [hlog, hclock]; exact past, ?_, ?_, ?_⟩
  · rw [hlog, hbans, hclock]
    rintro e' (_ | ⟨_, he'⟩) hb hr
    · unfold Recording.isBan at hb
      rw [hres] at hb
      cases hb
    · exact h.banned e' he' hb hr
  · rw [hp]
    exact fun hf => nomatch hf
  · rw [hlog]
    refine h.bounded.cons fun ha => ?_
    unfold Recording.allowed at ha
    rw [hres] at ha
    cases ha

/-- A recording that starts a ban. -/
theorem ban (h : Watch c s) (hpos : 0 < c.banAfterAttempts.toNat) (hp : s.limiter.poisoned = false)
    (hok : LosesNothing c s (.record now ip)) (hother : ∀ e ∈ s.log, e.ip = ip → e.Recent c s.clock → ¬ e.isBan)
    {secs : Nat} (hlog : s'.log = ⟨ip, now, s.clock, .ok (.banned secs)⟩ :: s.log) (hclock : s'.clock = s.clock)
    (hlim : s'.limiter = { s.limiter.put now ip [] with
      bans := s.limiter.bans.insert ip (now + fromSecs c.banDurationSeconds) }) : Watch c s' := by
  obtain ⟨sorted, past⟩ := h.ordered_cons (e := ⟨ip, now, s.clock, .ok (.banned secs)⟩) rfl
  have short : (s.limiter.put now ip []).Short := (h.short hp).put (by rw [h.config]; exact hpos)
  refine ⟨hlim ▸ h.config, hlim ▸ fun _ => short, hlog ▸ sorted, by rw [hlog, hclock]; exact past, ?_, ?_, ?_⟩
  · rw [hlog, hlim, hclock]
    intro e he hb hr
    rw [HashMap.lookup_insert_eq]
    rcases List.mem_cons.1 he with rfl | he
    · exact if_pos rfl
    · rw [if_neg fun hip => hother e he hip hr hb]
      exact h.banned e he hb hr
  · intro _ ip'
    rw [hlim]
    show List.Sublist _ ((s.limiter.put now ip []).entry ip')
    by_cases hip : ip' = ip
    · subst hip
      rw [readings_of_isBan hlog rfl]
      exact List.nil_sublist _
    · rw [readings_of_ne hlog hclock (Ne.symm hip)]
      exact h.readings_put_of_ne hp hok hip _
  · rw [hlog]
    exact h.bounded.cons fun ha => nomatch ha

/-- All calls of `ip` allowed in the current window are among its attempts. -/
theorem countP_lt (h : Watch c s) (hp : s.limiter.poisoned = false) (hok : LosesNothing c s (.record now ip))
    (hother : ∀ e ∈ s.log, e.ip = ip → e.Recent c s.clock → ¬ e.isBan) {a : Nat}
    (ha : s.clock < a + fromSecs c.authWindowSeconds) :
    s.log.countP (fun e => e.ip = ip ∧ e.allowed ∧ a ≤ e.clock ∧ e.clock < a + fromSecs c.authWindowSeconds) <
      (s.limiter.recorded now ip).length := by
  -- no recent ban: the recent steps are all among the readings, and these among the attempts
  have hlen := (h.readings_young hp fun e he hip hr => hok.2 e he hr (.inl hip)).length_le
  unfold Serving.readings at hlen
  rw [h.filter_sinceBan hother, List.length_reverse, List.length_map, List.filter_filter,
    ← List.countP_eq_length_filter] at hlen
  unfold RateLimiter.recorded
  rw [List.length_append, List.length_singleton]
  refine Nat.lt_succ_of_le (le_trans (List.countP_mono_left fun e he hc => ?_) hlen)
  obtain ⟨hip, -, hae, -⟩ := of_decide_eq_true hc
  have hle := h.past e he
  have hr : e.Recent c s.clock := by
    unfold Recording.Recent
    omega
  simp [hip, hr]

/-- A recording that counts the call. -/
theorem count (h : Watch c s) (hp : s.limiter.poisoned = false) (hok : LosesNothing c s (.record now ip))
    (hother : ∀ e ∈ s.log, e.ip = ip → e.Recent c s.clock → ¬ e.isBan)
    (hlt : (s.limiter.recorded now ip).length < c.banAfterAttempts.toNat)
    (hlog : s'.log = ⟨ip, now, s.clock, .ok (if c.maxAuthAttempts.toNat < (s.limiter.recorded now ip).length
      then .throttled else .allowed)⟩ :: s.log)
    (hclock : s'.clock = s.clock) (hlim : s'.limiter = s.limiter.put now ip (s.limiter.recorded now ip)) :
    Watch c s' := by
  generalize he : (⟨ip, now, s.clock, .ok (if c.maxAuthAttempts.toNat < (s.limiter.recorded now ip).length
    then .throttled else .allowed)⟩ : Recording) = e at hlog
  have hban : ¬ e.isBan := by
    subst he
    unfold Recording.isBan
    by_cases hgt : c.maxAuthAttempts.toNat < (s.limiter.recorded now ip).length <;> simp [hgt]
  obtain ⟨sorted, past⟩ := h.ordered_cons (e := e) (by rw [← he])
  refine ⟨hlim ▸ h.config, hlim ▸ fun _ => (h.short hp).put (by rw [h.config]; exact hlt), hlog ▸ sorted,
    by rw [hlog, hclock]; exact past, ?_, ?_, ?_⟩
  · rw [hlog, hlim, hclock]
    rintro e' (_ | ⟨_, he'⟩) hb hr
    · exact absurd hb hban
    · exact h.banned e' he' hb hr
  · intro _ ip'
    rw [hlim]
    by_cases hip : ip' = ip
    · subst hip
      rw [entry_put, if_pos rfl]
      have hsub := readings_sublist (c := c) hlog hclock hban
      rw [← he] at hsub
      refine (List.reverse_sublist.2 hsub).trans ?_
      rw [List.reverse_cons]
      exact (h.readings_young hp fun e he hip hr => hok.2 e he hr (.inl hip)).append_right _
    · rw [readings_of_ne hlog hclock (by rw [← he]; exact Ne.symm hip)]
      exact h.readings_put_of_ne hp hok hip _
  · rw [hlog]
    refine h.bounded.cons fun hal a hae hb => ?_
    subst he
    have hle : ¬ c.maxAuthAttempts.toNat < (s.limiter.recorded now ip).length := by
      intro hgt
      unfold Recording.allowed at hal
      rw [if_pos hgt] at hal
      cases hal
    exact (h.countP_lt hp hok hother hb).trans_le (Nat.not_lt.1 hle)

/-- A recording that finds no ban and loses nothing. -/
theorem record (h : Watch c s) (hle : c.authWindowSeconds ≤ c.banDurationSeconds) (hpos : 0 < c.banAfterAttempts.toNat)
    (hlog : s'.log = ⟨ip, now, s.clock, (s.limiter.record now ip).1⟩ :: s.log)
    (hlim : s'.limiter = (s.limiter.record now ip).2) (hclock : s'.clock = s.clock)
    (hok : LosesNothing c s (.record now ip)) : Watch c s' := by
  have hother := h.not_isBan hle hok
  cases hp : s.limiter.poisoned with
  | true =>
    rw [record_poisoned hp] at hlog hlim
    exact h.fail hlog rfl rfl hclock (hlim ▸ hp) (hlim ▸ h.config) (by rw [hlim])
  | false =>
    rcases record_cases now ip hp ((h.short hp).recorded_lt now ip) with
      ⟨hb, ⟨u, hu, hrec⟩ | ⟨hn, e, hrec⟩⟩ | ⟨hb, hrec⟩
    · rw [hrec] at hlog hlim
      obtain rfl := checkedAdd_some hu
      rw [h.config] at hlim
      exact h.ban hpos hp hok hother hlog hclock hlim
    · rw [hrec] at hlog hlim
      exact h.fail hlog rfl rfl hclock (hlim ▸ rfl) (hlim ▸ h.config) (by rw [hlim]; rfl)
    · rw [hrec, h.config] at hlog
      rw [hrec] at hlim
      rw [h.config] at hb
      exact h.count hp hok hother hb hlog hclock hlim

theorem step {m : Move} (h : Watch c s) (hle : c.authWindowSeconds ≤ c.banDurationSeconds)
    (hpos : 0 < c.banAfterAttempts.toNat) (hok : KeepsWindow c s m) (hs : s.step m = some s') : Watch c s' := by
  rcases Serving.step_cases hs with ⟨hlog, hlim, hclock⟩ | ⟨i, tag, op, rfl, hp, hclock, hcase⟩
  · exact h.later hlog hlim hclock
  · have hop := hok _ hp
    rcases hcase with ⟨now, rfl, hlog, hlim⟩ | ⟨now, ip, rfl, hlog, hlim⟩
    · exact h.sweep hlog hlim hclock hop
    · exact h.record hle hpos hlog hlim hclock hop

end Watch

/-! ## Runs -/

/-- In every run of the limiter whose steps lose nothing recorded less than a window ago, no address gets more than its
maximum of calls allowed within a window. -/
theorem bounded_of_keepsWindow (hc : c.validate = .ok ()) (hle : c.authWindowSeconds ≤ c.banDurationSeconds)
    (h : Reach (limiterCalls c) (KeepsWindow c) s) : Bounded c s.log := by
  obtain ⟨hmax, -, hban, -⟩ := RateLimitConfig.validate_ok hc
  have hpos := hmax.trans_le hban
  have watch : Watch c s := by
    apply h.invariant (I := Watch c)
    · rintro s ⟨t, rfl⟩
      exact ⟨rfl, fun _ _ => hpos, .nil, nofun, nofun, fun _ _ => .slnil, fun _ _ => Nat.zero_le _⟩
    · exact fun _ _ _ hi hok hs => hi.step hle hpos hok hs
  exact watch.bounded

/-- One attempt in a minute, and a quarter of an hour of ban after two. -/
def strict : RateLimitConfig := ⟨1, 60, 2, 900⟩

def Serving.idle : Serving := ⟨⟨⟨0, .new strict⟩, []⟩, []⟩

def guesser : IpAddr := .v4 0x0A0A0005#32

/-- Two calls pass the ban check at once and record, five seconds later the one and after another five the other, which
starts a ban. A third one meets the ban. -/
def twoGuesses : List Move :=
  [.call guesser, .call guesser, .advance 0, .advance 1, .advance 1, .advance 0, .advance 0, .elapse (fromSecs 5),
    .advance 0, .advance 1, .elapse (fromSecs 5), .advance 1, .call guesser, .advance 2, .advance 2]

theorem bounded_twoGuesses : ∃ s, (limiterCalls strict).trace .idle twoGuesses = some s ∧
    s.log.map (fun e => (e.ip, e.clock, e.allowed, e.isBan)) =
      [(guesser, fromSecs 10, false, true), (guesser, fromSecs 5, true, false)] ∧ Bounded strict s.log :=
  ⟨_, rfl, by decide, bounded_of_keepsWindow rfl (by decide)
    (Machine.reach_along (M := limiterCalls strict) (.start ⟨0, rfl⟩) (t := twoGuesses) (by decide) rfl)⟩

/-- Three calls pass the ban check; then the first one records, the second one records and starts a ban, and the third
one records. -/
def burst : List Move :=
  [.call guesser, .call guesser, .call guesser, .advance 0, .advance 0, .advance 0, .advance 1, .advance 1, .advance 1,
    .advance 2, .advance 2, .advance 2, .advance 0, .advance 1, .advance 2]

/-- The first and the third are allowed. -/
theorem burst_twoAllowed : ¬ ∀ c : RateLimitConfig, c.validate = .ok () → c.authWindowSeconds ≤ c.banDurationSeconds →
    ∀ s, Reach (limiterCalls c) Free s → Bounded c s.log := by
  intro h
  refine Machine.refute burst (M := limiterCalls strict) (s := .idle) ⟨0, rfl⟩ rfl (fun hb => ?_)
    (h strict rfl (by decide))
  exact absurd (hb guesser 0) (by decide)

end Didicafe
