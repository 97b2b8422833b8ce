/-
What the sections of `check_and_record` do: which ban is in force, what the sweeps leave, and the cases of the
recording. Whatever is dropped is too old to count at any later time.
-/
import Didicafe.Model.RateLimit
import Mathlib.Data.List.Sublists

namespace Didicafe

namespace RateLimitConfig

variable {c : RateLimitConfig}

/-- What the validation ensures. -/
theorem validate_ok (h : c.validate = .ok ()) : 0 < c.maxAuthAttempts.toNat ∧ 0 < c.authWindowSeconds.toNat ∧
    c.maxAuthAttempts.toNat ≤ c.banAfterAttempts.toNat ∧ 0 < c.banDurationSeconds.toNat := by
  simp only [validate, ensure_bind_ok, ensure_ok, UInt32.lt_iff_toNat_lt, UInt64.lt_iff_toNat_lt,
    UInt32.le_iff_toNat_le] at h
  exact h

end RateLimitConfig

theorem checkedAdd_some {t d u : Nat} (h : checkedAdd t d = some u) : u = t + d := by
  unfold checkedAdd at h
  split at h <;> cases h
  rfl

namespace RateLimiter

variable {l : RateLimiter} {now now' : Nat} {ip ip' : IpAddr} {w : Nat} {ts : List Nat}

/-! ## Attempts within the window -/

theorem young_append (ts ts' : List Nat) : young w now (ts ++ ts') = young w now ts ++ young w now ts' :=
  List.filter_append ..

/-- Dropping what is old now does not show later. -/
theorem young_young (h : now ≤ now') (ts : List Nat) : young w now' (young w now ts) = young w now' ts := by
  unfold young
  rw [List.filter_filter]
  refine List.filter_congr fun t _ => ?_
  rw [Bool.and_eq_left_iff_imp, decide_eq_true_iff, decide_eq_true_iff]
  intro ht
  omega

/-- The attempts of an address. -/
def entry (l : RateLimiter) (ip : IpAddr) : List Nat := (l.attempts.lookup ip).getD []

/-- The periodic sweep drops nothing young. -/
theorem swept_cases (l : RateLimiter) (now : Nat) (ip : IpAddr) :
    ((l.swept now).lookup ip).getD [] = l.entry ip ∨
      l.SweepDue ∧ ((l.swept now).lookup ip).getD [] = young l.window now (l.entry ip) := by
  unfold swept entry
  split
  · refine .inr ⟨‹_›, ?_⟩
    rw [HashMap.lookup_retain]
    cases l.attempts.lookup ip with
    | none => rfl
    | some ts =>
      simp only [Option.bind_some, Option.getD_some]
      split
      · simp_all
      · rfl
  · exact .inl rfl

theorem young_swept (h : now ≤ now') :
    young l.window now' (((l.swept now).lookup ip).getD []) = young l.window now' (l.entry ip) := by
  rcases l.swept_cases now ip with hs | ⟨-, hs⟩
  · rw [hs]
  · rw [hs, young_young h]

/-! ## Recording -/

/-- The entry of `ip` with the new attempt. -/
def recorded (l : RateLimiter) (now : Nat) (ip : IpAddr) : List Nat :=
  young l.window now (l.entry ip) ++ [now]

theorem record_poisoned (h : l.poisoned = true) : l.record now ip = (.error (.panic "attempts lock poisoned"), l) := by
  unfold record
  rw [if_pos h]

/-- The limiter with a new entry of `ip`. -/
def put (l : RateLimiter) (now : Nat) (ip : IpAddr) (ts : List Nat) : RateLimiter :=
  { l with attempts := (l.swept now).insert ip ts }

theorem record_cases (now : Nat) (ip : IpAddr) (hp : l.poisoned = false)
    (hn : (l.recorded now ip).length < 2 ^ 32) :
    l.config.banAfterAttempts.toNat ≤ (l.recorded now ip).length ∧
      ((∃ banUntil, checkedAdd now (fromSecs l.config.banDurationSeconds) = some banUntil ∧
        l.record now ip = (.ok (.banned l.config.banDurationSeconds.toNat),
          { l.put now ip [] with bans := l.bans.insert ip banUntil })) ∨
      checkedAdd now (fromSecs l.config.banDurationSeconds) = none ∧
        ∃ e, l.record now ip = (.error e, { l.put now ip (l.recorded now ip) with poisoned := true })) ∨
    (l.recorded now ip).length < l.config.banAfterAttempts.toNat ∧
      l.record now ip =
        (.ok (if l.config.maxAuthAttempts.toNat < (l.recorded now ip).length then .throttled else .allowed),
          l.put now ip (l.recorded now ip)) := by
  have hentry : young l.window now (((l.swept now).lookup ip).getD []) ++ [now] = l.recorded now ip := by
    rw [young_swept le_rfl]; rfl
  have hcount : (UInt32.ofNat (l.recorded now ip).length).toNat = (l.recorded now ip).length :=
    UInt32.toNat_ofNat_of_lt' hn
  unfold record
  rw [if_neg (by simp [hp])]
  simp only [hentry, UInt32.le_iff_toNat_le, UInt32.lt_iff_toNat_lt, hcount]
  by_cases hb : l.config.banAfterAttempts.toNat ≤ (l.recorded now ip).length
  · refine .inl ⟨hb, ?_⟩
    rw [if_pos hb]
    cases hu : checkedAdd now (fromSecs l.config.banDurationSeconds) with
    | some u => exact .inl ⟨u, rfl, rfl⟩
    | none => exact .inr ⟨rfl, _, rfl⟩
  · refine .inr ⟨by omega, ?_⟩
    rw [if_neg hb]
    split <;> rfl

/-- The entries after a new one is put. -/
theorem entry_put (ts : List Nat) : (l.put now ip ts).entry ip' =
    if ip' = ip then ts else ((l.swept now).lookup ip').getD [] := by
  unfold entry put
  simp only [HashMap.lookup_insert_eq]
  split <;> rfl

/-- Every entry is shorter than the ban threshold. -/
def Short (l : RateLimiter) : Prop := ∀ ip, (l.entry ip).length < l.config.banAfterAttempts.toNat

theorem Short.recorded_lt (h : l.Short) (now : Nat) (ip : IpAddr) : (l.recorded now ip).length < 2 ^ 32 := by
  have h₁ := h ip
  have h₂ := l.config.banAfterAttempts.toNat_lt
  have h₃ := List.length_filter_le (fun t => decide (now - t < l.window)) (l.entry ip)
  unfold recorded young
  rw [List.length_append, List.length_singleton]
  omega

theorem Short.put (h : l.Short) {ts : List Nat} (ht : ts.length < l.config.banAfterAttempts.toNat) :
    (l.put now ip ts).Short := by
  intro ip'
  rw [entry_put]
  show _ < l.config.banAfterAttempts.toNat
  split
  · exact ht
  · rcases l.swept_cases now ip' with hs | ⟨-, hs⟩
    · rw [hs]; exact h ip'
    · rw [hs]; exact (List.length_filter_le _ _).trans_lt (h ip')

end RateLimiter

end Didicafe
