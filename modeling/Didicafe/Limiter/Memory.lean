/-
The memory of the limiter: the sweep is due only when the number of entries is a multiple of 256, which is often enough
to bound them by the addresses with young attempts.
-/
import Didicafe.Limiter.Reference
import Mathlib.Data.List.Dedup

namespace Didicafe

open Effect

/-- The limiter after `check_and_record` was called one after the other at the given times. -/
def afterCalls (l : RateLimiter) : List (Nat × IpAddr) → RateLimiter
  | [] => l
  | (now, ip) :: calls => afterCalls ((checkAndRecord ip).run Gate.exec ⟨now, l⟩).2.limiter calls

namespace RateLimiter

/-- The addresses with a recorded attempt younger than the window. -/
def youngIps (l : RateLimiter) (now : Nat) : List IpAddr :=
  l.attempts.keys.filter fun ip => (l.entry ip).any (now - · < l.window)

variable {l : RateLimiter} {now : Nat} {ip : IpAddr} {calls : List (Nat × IpAddr)} {M : Nat}

theorem entry_of_mem {e : Sigma fun _ : IpAddr => List Nat} (h : e ∈ l.attempts.entries) : l.entry e.1 = e.2 := by
  have hlookup : l.attempts.lookup e.1 = some e.2 := AList.mem_lookup_iff.2 h
  rw [entry, hlookup, Option.getD_some]

/-! ## One call -/

/-- A recording inserts one entry behind the sweep, unless the lock is poisoned. -/
theorem attempts_record (l : RateLimiter) (now : Nat) (ip : IpAddr) :
    (l.record now ip).2.attempts = l.attempts ∨
      ∃ ts ⊆ l.recorded now ip, (l.record now ip).2.attempts = (l.swept now).insert ip ts := by
  have hentry : young l.window now (((l.swept now).lookup ip).getD []) ++ [now] = l.recorded now ip := by
    rw [young_swept le_rfl]; rfl
  unfold record
  split
  · exact .inl rfl
  · simp only [hentry]
    split
    · split
      · exact .inr ⟨_, List.Subset.refl _, rfl⟩
      · exact .inr ⟨[], List.nil_subset _, rfl⟩
    · split
      · exact .inr ⟨_, List.Subset.refl _, rfl⟩
      · exact .inr ⟨_, List.Subset.refl _, rfl⟩

theorem config_record (l : RateLimiter) (now : Nat) (ip : IpAddr) : (l.record now ip).2.config = l.config := by
  unfold record
  split
  · rfl
  · dsimp only
    split
    · split <;> rfl
    · split <;> rfl

/-- What a call leaves of the limiter: the attempts as they were, or with one more entry behind the sweep. -/
theorem call_cases (l : RateLimiter) (now : Nat) (ip : IpAddr) :
    ((checkAndRecord ip).run Gate.exec ⟨now, l⟩).2.limiter.config = l.config ∧
      (((checkAndRecord ip).run Gate.exec ⟨now, l⟩).2.limiter.attempts = l.attempts ∨
        ∃ ts ⊆ l.recorded now ip,
          ((checkAndRecord ip).run Gate.exec ⟨now, l⟩).2.limiter.attempts = (l.swept now).insert ip ts) := by
  rw [run_checkAndRecord]
  split
  · exact ⟨rfl, .inl rfl⟩
  · exact ⟨config_record (l.sweepBans now) now ip, attempts_record (l.sweepBans now) now ip⟩

/-! ## The number of entries -/

/-- The sweep leaves the addresses with young attempts. -/
theorem len_swept (h : l.SweepDue) : (l.swept now).len = (l.youngIps now).length := by
  unfold swept youngIps
  rw [if_pos h, HashMap.len_retain, AList.keys, List.keys, ← List.countP_eq_length_filter, List.countP_map]
  refine List.countP_congr fun e he => ?_
  rw [Function.comp_apply, entry_of_mem he]
  simp [young, List.isEmpty_iff]

/-- One call keeps the bound: without a sweep the size was not the bound, which is a multiple of 256. -/
theorem len_record_le (hyoung : (l.youngIps now).length ≤ M) (hlen : l.attempts.len ≤ 256 * (M / 256 + 1)) :
    (l.swept now).len + 1 ≤ 256 * (M / 256 + 1) := by
  by_cases hdue : l.SweepDue
  · rw [len_swept hdue]
    omega
  · have hsame : (l.swept now).len = l.attempts.len := by rw [swept, if_neg hdue]
    have hne : l.attempts.len ≠ 256 * (M / 256 + 1) := by
      intro heq
      exact hdue ⟨by omega, by omega⟩
    omega

theorem len_call_le (hyoung : (l.youngIps now).length ≤ M) (hlen : l.attempts.len ≤ 256 * (M / 256 + 1)) :
    ((checkAndRecord ip).run Gate.exec ⟨now, l⟩).2.limiter.attempts.len ≤ 256 * (M / 256 + 1) := by
  obtain ⟨-, hsame | ⟨ts, -, hput⟩⟩ := l.call_cases now ip
  · rw [hsame]
    exact hlen
  · rw [hput]
    exact (HashMap.len_insert_le ..).trans (len_record_le hyoung hlen)

/-- A run of calls keeps the bound. -/
theorem len_afterCalls_le {l : RateLimiter} (hlen : l.attempts.len ≤ 256 * (M / 256 + 1))
    (hyoung : ∀ i (hi : i < calls.length), ((afterCalls l (calls.take i)).youngIps calls[i].1).length ≤ M) :
    (afterCalls l calls).attempts.len ≤ 256 * (M / 256 + 1) := by
  induction calls generalizing l with
  | nil => exact hlen
  | cons call calls ih =>
    have hfirst : (l.youngIps call.1).length ≤ M := hyoung 0 (Nat.zero_lt_succ _)
    exact ih (len_call_le hfirst hlen) fun i hi => hyoung (i + 1) (Nat.succ_lt_succ hi)

/-! ## Real traffic -/

/-- The addresses that called within the window before `now`. -/
def recentCallers (window now : Nat) (calls : List (Nat × IpAddr)) : List IpAddr :=
  ((calls.filter (now - ·.1 < window)).map Prod.snd).dedup

/-- Every recorded attempt was a call. -/
def FromCalls (l : RateLimiter) (calls : List (Nat × IpAddr)) : Prop := ∀ ip, ∀ t ∈ l.entry ip, (t, ip) ∈ calls

/-- The sweep adds no attempt. -/
theorem entry_swept_subset (l : RateLimiter) (now : Nat) (ip : IpAddr) :
    ((l.swept now).lookup ip).getD [] ⊆ l.entry ip := by
  rcases l.swept_cases now ip with hs | ⟨-, hs⟩
  · rw [hs]
    exact List.Subset.refl _
  · rw [hs]
    exact fun t ht => List.mem_of_mem_filter ht

theorem FromCalls.call (h : l.FromCalls calls) (now : Nat) (ip : IpAddr) :
    ((checkAndRecord ip).run Gate.exec ⟨now, l⟩).2.limiter.FromCalls (calls ++ [(now, ip)]) := by
  intro ip' t ht
  rw [List.mem_append, List.mem_singleton]
  obtain ⟨-, hsame | ⟨ts, hts, hput⟩⟩ := l.call_cases now ip
  · rw [entry, hsame] at ht
    exact .inl (h ip' t ht)
  · rw [entry, hput, HashMap.lookup_insert_eq] at ht
    split at ht
    · next hip =>
      subst hip
      rcases List.mem_append.1 (hts ht) with hold | hnew
      · exact .inl (h ip' t (List.mem_of_mem_filter hold))
      · exact .inr (by rw [List.mem_singleton.1 hnew])
    · exact .inl (h ip' t (entry_swept_subset l now ip' ht))

theorem FromCalls.afterCalls {l : RateLimiter} {past : List (Nat × IpAddr)} (h : l.FromCalls past) :
    (afterCalls l calls).FromCalls (past ++ calls) ∧ (afterCalls l calls).config = l.config := by
  induction calls generalizing l past with
  | nil => exact ⟨(List.append_nil past).symm ▸ h, rfl⟩
  | cons call calls ih =>
    obtain ⟨hcalls, hconfig⟩ := ih (h.call call.1 call.2)
    rw [List.append_assoc] at hcalls
    exact ⟨hcalls, hconfig.trans (l.call_cases call.1 call.2).1⟩

/-- An address with a young attempt called within the window. -/
theorem length_youngIps_le (h : l.FromCalls calls) :
    (l.youngIps now).length ≤ (recentCallers l.window now calls).length := by
  refine (List.subperm_of_subset (l.attempts.keys_nodup.filter _) fun ip hip => ?_).length_le
  obtain ⟨t, ht, hyoung⟩ := List.any_eq_true.1 (List.mem_filter.1 hip).2
  exact List.mem_dedup.2 (List.mem_map.2 ⟨(t, ip), List.mem_filter.2 ⟨h ip t ht, hyoung⟩, rfl⟩)

end RateLimiter

open RateLimiter

/-! ## The bound -/

/-- With `M` bounding the addresses with young attempts at the start of every call, the entries are not more than the
first multiple of 256 above `M`. The times need not be in order, and the configuration need not be valid. -/
theorem attempts_bounded (c : RateLimitConfig) (calls : List (Nat × IpAddr)) (M : Nat)
    (hyoung : ∀ i (hi : i < calls.length), ((afterCalls (.new c) (calls.take i)).youngIps calls[i].1).length ≤ M) :
    (afterCalls (.new c) calls).attempts.len ≤ 256 * (M / 256 + 1) :=
  len_afterCalls_le (Nat.zero_le _) hyoung

/-- The second attempt of the address comes when the first one is too old to count. -/
theorem attempts_bounded_stale :
    let calls := [(0, IpAddr.v4 0x0A0A0005#32), (100000000000, .v4 0x0A0A0005#32), (200000000000, .v4 0x0A0A0006#32)]
    (afterCalls (.new ⟨3, 60, 5, 900⟩) calls).attempts.len ≤ 256 * (0 / 256 + 1) :=
  attempts_bounded ⟨3, 60, 5, 900⟩ _ 0 (by decide +kernel)

/-- The same with the addresses that called within the window. -/
theorem attempts_bounded_by_callers (c : RateLimitConfig) (calls : List (Nat × IpAddr)) (M : Nat)
    (hcallers : ∀ i (hi : i < calls.length),
      (recentCallers (fromSecs c.authWindowSeconds) calls[i].1 (calls.take i)).length ≤ M) :
    (afterCalls (.new c) calls).attempts.len ≤ 256 * (M / 256 + 1) := by
  refine len_afterCalls_le (Nat.zero_le _) fun i hi => ?_
  have start : (RateLimiter.new c).FromCalls [] := fun ip t ht => absurd ht (List.not_mem_nil)
  obtain ⟨hfrom, hconfig⟩ : (afterCalls (.new c) (calls.take i)).FromCalls (calls.take i) ∧ _ := start.afterCalls
  have hwindow : (afterCalls (.new c) (calls.take i)).window = fromSecs c.authWindowSeconds := by
    rw [window, hconfig]
    rfl
  exact (length_youngIps_le hfrom).trans (hwindow ▸ hcallers i hi)

end Didicafe
