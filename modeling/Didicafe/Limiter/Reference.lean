/-
What the rate limiter is for, said of each address and its own history alone, and that `check_and_record` computes it:
calls made one after the other get the results of the reference, whatever the sweeps drop in between.
-/
import Didicafe.Limiter.Sections
import Mathlib.Logic.Function.Basic

namespace Didicafe

open Effect

/-! ## The reference -/

/-- What became of a call: it was refused during a ban, counted, or it started a ban. -/
inductive Fate where
  | refused
  | counted
  | banned
deriving DecidableEq, Repr

/-- The calls of one address with their times, the latest first. -/
abbrev History := List (Nat × Fate)

namespace History

/-- The counted calls since the last ban. -/
def sinceBan : History → List Nat
  | [] => []
  | (_, .banned) :: _ => []
  | (t, .counted) :: past => t :: sinceBan past
  | (_, .refused) :: past => sinceBan past

/-- When the last ban was started. -/
def lastBan : History → Option Nat
  | [] => none
  | (t, .banned) :: _ => some t
  | _ :: past => lastBan past

/-- The end of the last ban, as long as it has not passed. -/
def running (c : RateLimitConfig) (now : Nat) (past : History) : Option Nat :=
  ((lastBan past).map (· + fromSecs c.banDurationSeconds)).filter (now < ·)

/-- The calls that count at `now`, with the one made now. -/
def count (c : RateLimitConfig) (now : Nat) (past : History) : Nat :=
  (sinceBan past).countP (now - · < fromSecs c.authWindowSeconds) + 1

/-- What becomes of a call at `now`, and its result. -/
def verdict (c : RateLimitConfig) (now : Nat) (past : History) : Fate × RateLimitResult :=
  match past.running c now with
  | some banUntil => (.refused, .banned (max 1 (asSecs (banUntil - now))))
  | none =>
    if c.banAfterAttempts.toNat ≤ past.count c now then (.banned, .banned c.banDurationSeconds.toNat)
    else if c.maxAuthAttempts.toNat < past.count c now then (.counted, .throttled)
    else (.counted, .allowed)

end History

/-- The histories after a call. -/
def remember (c : RateLimitConfig) (past : IpAddr → History) (now : Nat) (ip : IpAddr) : IpAddr → History :=
  Function.update past ip ((now, ((past ip).verdict c now).1) :: past ip)

/-- The results of a sequence of calls. -/
def reference (c : RateLimitConfig) (past : IpAddr → History) : List (Nat × IpAddr) → List RateLimitResult
  | [] => []
  | (now, ip) :: calls => ((past ip).verdict c now).2 :: reference c (remember c past now ip) calls

/-- The results of `check_and_record`, called one after the other at the given times. -/
def results (l : RateLimiter) : List (Nat × IpAddr) → List (Except Err RateLimitResult)
  | [] => []
  | (now, ip) :: calls =>
    let (result, gate) := (checkAndRecord ip).run Gate.exec ⟨now, l⟩
    result :: results gate.limiter calls

/-! ## One call -/

theorem run_checkAndRecord (now : Nat) (l : RateLimiter) (ip : IpAddr) :
    (checkAndRecord ip).run Gate.exec ⟨now, l⟩ =
      match l.checkBan now ip with
      | some result => (.ok result, ⟨now, l⟩)
      | none => (((l.sweepBans now).record now ip).1, ⟨now, ((l.sweepBans now).record now ip).2⟩) := by
  unfold checkAndRecord
  simp only [Prog.run_bind, Prog.run_perform, Gate.exec]
  cases l.checkBan now ip with
  | some result => rfl
  | none => simp only [Prog.run_bind, Prog.run_perform, Gate.exec]

namespace RateLimiter

theorem checkBan_eq (l : RateLimiter) (now : Nat) (ip : IpAddr) :
    l.checkBan now ip = ((l.bans.lookup ip).filter (now < ·)).map fun banUntil =>
      .banned (max 1 (asSecs (banUntil - now))) := by
  unfold checkBan
  cases l.bans.lookup ip with
  | none => rfl
  | some u =>
    by_cases h : now < u
    · simp [Option.filter_some, h, Nat.max_comm]
    · simp [Option.filter_some, h]

/-- The sweep removes no ban that is in force later. -/
theorem lookup_sweepBans {l : RateLimiter} {now t : Nat} (h : now ≤ t) (ip : IpAddr) :
    ((l.sweepBans now).bans.lookup ip).filter (t < ·) = (l.bans.lookup ip).filter (t < ·) := by
  unfold sweepBans
  rw [HashMap.lookup_retain]
  cases l.bans.lookup ip with
  | none => rfl
  | some u =>
    by_cases hu : now < u
    · simp [hu]
    · have ht : ¬ t < u := by omega
      simp [Option.filter_some, hu, ht]

end RateLimiter

open RateLimiter History

/-- The limiter tells of the histories all that matters from `now` on. -/
structure Agrees (c : RateLimitConfig) (past : IpAddr → History) (now : Nat) (l : RateLimiter) : Prop where
  config : l.config = c
  sound : l.poisoned = false
  short : l.Short
  attempts : ∀ ip t, now ≤ t →
    young (fromSecs c.authWindowSeconds) t (l.entry ip) =
      young (fromSecs c.authWindowSeconds) t (past ip).sinceBan.reverse
  bans : ∀ ip t, now ≤ t → (l.bans.lookup ip).filter (t < ·) = (past ip).running c t

namespace Agrees

variable {c : RateLimitConfig} {past : IpAddr → History} {now t : Nat} {l : RateLimiter} {ip : IpAddr}

theorem later (h : Agrees c past now l) (hle : now ≤ t) : Agrees c past t l :=
  ⟨h.config, h.sound, h.short, fun ip t' h' => h.attempts ip t' (hle.trans h'),
    fun ip t' h' => h.bans ip t' (hle.trans h')⟩

theorem sweepBans (h : Agrees c past now l) : Agrees c past now (l.sweepBans now) :=
  ⟨h.config, h.sound, h.short, h.attempts, fun ip t ht => (lookup_sweepBans ht ip).trans (h.bans ip t ht)⟩

/-- The new entry is as long as the reference counts. -/
theorem length_recorded (h : Agrees c past now l) : (l.recorded now ip).length = (past ip).count c now := by
  unfold recorded window count
  rw [h.config, h.attempts ip now le_rfl, List.length_append, young, List.filter_reverse, List.length_reverse,
    List.countP_eq_length_filter]
  rfl

theorem young_recorded (h : Agrees c past now l) (ht : now ≤ t) :
    young (fromSecs c.authWindowSeconds) t (l.recorded now ip) =
      young (fromSecs c.authWindowSeconds) t (now :: (past ip).sinceBan).reverse := by
  unfold recorded window
  rw [h.config, young_append, young_young ht, h.attempts ip t ht, List.reverse_cons, young_append]

/-- The other addresses do not see that `ip` gets a new entry. -/
theorem young_put_of_ne (h : Agrees c past now l) {ts : List Nat} {ip' : IpAddr} (hne : ip' ≠ ip) (ht : now ≤ t) :
    young (fromSecs c.authWindowSeconds) t ((l.put now ip ts).entry ip') =
      young (fromSecs c.authWindowSeconds) t (past ip').sinceBan.reverse := by
  have hy : young l.window t (((l.swept now).lookup ip').getD []) = young l.window t (l.entry ip') := young_swept ht
  unfold window at hy
  rw [entry_put, if_neg hne, ← h.config, hy, h.config, h.attempts ip' t ht]

/-- A counted call. -/
theorem counted (h : Agrees c past now l) (hlt : (past ip).count c now < c.banAfterAttempts.toNat) :
    Agrees c (Function.update past ip ((now, .counted) :: past ip)) now (l.put now ip (l.recorded now ip)) := by
  constructor
  case config => exact h.config
  case sound => exact h.sound
  case short => exact h.short.put (by rw [h.length_recorded, h.config]; exact hlt)
  case attempts =>
    intro ip' t ht
    by_cases hip : ip' = ip
    · subst hip
      rw [entry_put, if_pos rfl, Function.update_self]
      exact h.young_recorded ht
    · rw [Function.update_of_ne hip]
      exact h.young_put_of_ne hip ht
  case bans =>
    intro ip' t ht
    by_cases hip : ip' = ip
    · subst hip
      rw [Function.update_self]
      exact h.bans ip' t ht
    · rw [Function.update_of_ne hip]
      exact h.bans ip' t ht

/-- A call that starts a ban. -/
theorem banned (h : Agrees c past now l) (hpos : 0 < c.banAfterAttempts.toNat) :
    Agrees c (Function.update past ip ((now, .banned) :: past ip)) now
      { l.put now ip [] with bans := l.bans.insert ip (now + fromSecs c.banDurationSeconds) } := by
  constructor
  case config => exact h.config
  case sound => exact h.sound
  case short =>
    apply h.short.put
    rw [h.config]
    exact hpos
  case attempts =>
    intro ip' t ht
    show young _ t ((l.put now ip []).entry ip') = _
    by_cases hip : ip' = ip
    · subst hip
      rw [entry_put, if_pos rfl, Function.update_self]
      rfl
    · rw [Function.update_of_ne hip]
      exact h.young_put_of_ne hip ht
  case bans =>
    intro ip' t ht
    rw [HashMap.lookup_insert_eq]
    by_cases hip : ip' = ip
    · subst hip
      rw [if_pos rfl, Function.update_self]
      rfl
    · rw [if_neg hip, Function.update_of_ne hip]
      exact h.bans ip' t ht

/-- A call that is refused. -/
theorem refused (h : Agrees c past now l) :
    Agrees c (Function.update past ip ((now, .refused) :: past ip)) now l := by
  have same : ∀ ip', (Function.update past ip ((now, .refused) :: past ip) ip').sinceBan = (past ip').sinceBan ∧
      (Function.update past ip ((now, .refused) :: past ip) ip').lastBan = (past ip').lastBan := by
    intro ip'
    by_cases hip : ip' = ip
    · subst hip
      rw [Function.update_self]
      exact ⟨rfl, rfl⟩
    · rw [Function.update_of_ne hip]
      exact ⟨rfl, rfl⟩
  refine ⟨h.config, h.sound, h.short, fun ip' t ht => ?_, fun ip' t ht => ?_⟩
  · rw [(same ip').1, h.attempts ip' t ht]
  · unfold running
    rw [(same ip').2]
    exact h.bans ip' t ht

/-- A recording keeps up with the reference. -/
theorem record (h : Agrees c past now l) (hpos : 0 < c.banAfterAttempts.toNat)
    (hfit : (checkedAdd now (fromSecs c.banDurationSeconds)).isSome) (hrun : (past ip).running c now = none) :
    (l.record now ip).1 = .ok ((past ip).verdict c now).2 ∧
      Agrees c (remember c past now ip) now (l.record now ip).2 := by
  have hlen : (l.recorded now ip).length = (past ip).count c now := h.length_recorded
  unfold remember verdict
  rw [hrun]
  rcases record_cases now ip h.sound (h.short.recorded_lt now ip) with ⟨hb, ⟨u, hu, hrec⟩ | ⟨hn, -⟩⟩ | ⟨hb, hrec⟩
  · rw [h.config, hlen] at hb
    rw [h.config] at hu
    obtain rfl := checkedAdd_some hu
    simp only [if_pos hb, hrec, h.config]
    exact ⟨trivial, h.banned hpos⟩
  · rw [h.config] at hn
    rw [hn] at hfit
    cases hfit
  · rw [h.config, hlen] at hb
    simp only [if_neg (Nat.not_le.2 hb), hrec, h.config, hlen]
    split
    · exact ⟨rfl, h.counted hb⟩
    · exact ⟨rfl, h.counted hb⟩

/-- A call gets the result of the reference. -/
theorem call (h : Agrees c past now l) (hpos : 0 < c.banAfterAttempts.toNat)
    (hfit : (checkedAdd now (fromSecs c.banDurationSeconds)).isSome) :
    ((checkAndRecord ip).run Gate.exec ⟨now, l⟩).1 = .ok ((past ip).verdict c now).2 ∧
      Agrees c (remember c past now ip) now ((checkAndRecord ip).run Gate.exec ⟨now, l⟩).2.limiter := by
  rw [run_checkAndRecord, checkBan_eq, h.bans ip now le_rfl]
  cases hr : (past ip).running c now with
  | none => exact h.sweepBans.record hpos hfit hr
  | some u =>
    unfold remember verdict
    rw [hr]
    exact ⟨rfl, h.refused⟩

/-- The results of any calls are those of the reference. -/
theorem results_eq (hpos : 0 < c.banAfterAttempts.toNat) :
    ∀ {calls : List (Nat × IpAddr)} {past : IpAddr → History} {now : Nat} {l : RateLimiter}, Agrees c past now l →
      (∀ x ∈ calls, now ≤ x.1) → calls.Pairwise (fun x y => x.1 ≤ y.1) →
      (∀ x ∈ calls, (checkedAdd x.1 (fromSecs c.banDurationSeconds)).isSome) →
      results l calls = (reference c past calls).map .ok
  | [], _, _, _, _, _, _, _ => rfl
  | (now, ip) :: calls, past, _, l, h, hle, hsorted, hfit => by
    obtain ⟨hlater, hsorted⟩ := List.pairwise_cons.1 hsorted
    have hnow := h.later (hle _ (List.mem_cons_self ..))
    obtain ⟨hres, hnext⟩ :
        _ ∧ Agrees c (remember c past now ip) now ((checkAndRecord ip).run Gate.exec ⟨now, l⟩).2.limiter :=
      hnow.call hpos (hfit _ (List.mem_cons_self ..))
    have ih := hnext.results_eq hpos hlater hsorted fun x hx => hfit x (List.mem_cons_of_mem _ hx)
    exact congrArg₂ List.cons hres ih

end Agrees

/-- For every validated configuration, calls made one after the other at times that do not go back have the results of
the reference. -/
theorem results_eq_reference {c : RateLimitConfig} (hc : c.validate = .ok ()) {calls : List (Nat × IpAddr)}
    (hsorted : calls.Pairwise fun x y => x.1 ≤ y.1)
    (hfit : ∀ x ∈ calls, (checkedAdd x.1 (fromSecs c.banDurationSeconds)).isSome) :
    results (.new c) calls = (reference c (fun _ => []) calls).map .ok := by
  obtain ⟨hmax, -, hle, -⟩ := RateLimitConfig.validate_ok hc
  have hpos := hmax.trans_le hle
  have start : Agrees c (fun _ => []) 0 (.new c) := ⟨rfl, rfl, fun _ => hpos, fun _ _ _ => rfl, fun _ _ _ => rfl⟩
  exact start.results_eq hpos (fun _ _ => Nat.zero_le _) hsorted hfit

theorem results_eq_reference_burst : results (.new ⟨3, 60, 5, 900⟩) (List.replicate 6 (0, .v4 0x0A0A0005#32)) =
    (reference ⟨3, 60, 5, 900⟩ (fun _ => []) (List.replicate 6 (0, .v4 0x0A0A0005#32))).map .ok ∧
    reference ⟨3, 60, 5, 900⟩ (fun _ => []) (List.replicate 6 (0, .v4 0x0A0A0005#32)) =
      [.allowed, .allowed, .allowed, .throttled, .banned 900, .banned 900] :=
  ⟨results_eq_reference rfl (by decide) (by decide), by decide +kernel⟩

end Didicafe
