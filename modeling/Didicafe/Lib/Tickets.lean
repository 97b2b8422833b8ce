/-
Some operations earn a ticket by their answer, others spend one. Where every program earns what it spends, no run spends
more than has been earned, whatever the order of the threads. How much can be earned in a length of time, when there is
a bound for every window.
-/
import Didicafe.Lib.Journal

namespace Didicafe.Effect

open Runs

variable {Op : Type} {Out : Op → Type} {α σ κ ε : Type}

/-! ## Tariffs -/

/-- What earns a ticket, and what spends one. -/
structure Tariff (Op : Type) (Out : Op → Type) where
  earns : Sigma Out → Bool
  spends : Op → Bool

namespace Tariff

variable (t : Tariff Op Out) {past past' : Past Op Out}

def earned (past : Past Op Out) : Nat := past.countP t.earns

def spent (past : Past Op Out) : Nat := past.countP fun x => t.spends x.1

/-- What is spent has been earned before. -/
def guard : Guard Op Out := fun past op => t.spends op = true → t.spent past < t.earned past

/-- From one past to a later one nothing is spent. -/
structure Saves (past past' : Past Op Out) : Prop where
  spent : t.spent past' = t.spent past
  earned : t.earned past ≤ t.earned past'

variable {t}

theorem Saves.refl : t.Saves past past := ⟨rfl, Nat.le_refl _⟩

theorem Saves.trans {past'' : Past Op Out} (h : t.Saves past past') (h' : t.Saves past' past'') : t.Saves past past'' :=
  ⟨h'.spent.trans h.spent, Nat.le_trans h.earned h'.earned⟩

theorem saves_cons {x : Sigma Out} (h : t.spends x.1 = false) : t.Saves past (x :: past) :=
  ⟨List.countP_cons_of_neg (by simp [h]), (List.sublist_cons_self x past).countP_le⟩

/-- A program that never spends. -/
theorem keeps_of_saving {A : Answers Op Out} {p : Prog Op Out α} (h : p.Uses fun op => t.spends op = false) :
    p.Keeps A t.guard (fun _ past' => t.Saves past past') past := by
  induction p generalizing past with
  | done a => exact .refl
  | call op next ih =>
    obtain ⟨hop, hnext⟩ := h
    refine ⟨fun hs => ?_, fun r _ => (ih r (hnext r)).mono fun _ _ h => (saves_cons hop).trans h⟩
    rw [hop] at hs
    cases hs

end Tariff

/-! ## Runs -/

section Runs

variable {log : List (Event κ σ Op Out)} {t : κ → Tariff Op Out}

/-- What holds of the counts of each thread holds of the counts of all. -/
theorem countP_le_of_threads {p q : Event κ σ Op Out → Bool}
    (h : ∀ i, (log.filter (·.thread = i)).countP p ≤ (log.filter (·.thread = i)).countP q) :
    log.countP p ≤ log.countP q := by
  -- thread by thread, the events of the threads below `n`
  have below (n : Nat) : (log.filter (·.thread < n)).countP p ≤ (log.filter (·.thread < n)).countP q := by
    induction n with
    | zero => simp
    | succ n ih =>
      have split (r : Event κ σ Op Out → Bool) : (log.filter (·.thread < n + 1)).countP r =
          (log.filter (·.thread < n)).countP r + (log.filter (·.thread = n)).countP r := by
        clear h ih
        induction log with
        | nil => rfl
        | cons e log ih =>
          simp only [List.filter_cons, decide_eq_true_eq]
          rcases Nat.lt_trichotomy e.thread n with hlt | heq | hgt
          · rw [if_pos (by omega), if_pos hlt, if_neg (by omega), List.countP_cons, List.countP_cons, ih]
            omega
          · rw [if_pos (by omega), if_neg (by omega), if_pos heq, List.countP_cons, List.countP_cons, ih]
            omega
          · rw [if_neg (by omega), if_neg (by omega), if_neg (by omega), ih]
      rw [split, split]
      exact Nat.add_le_add ih (h n)
  obtain ⟨n, hn⟩ : ∃ n, ∀ e ∈ log, e.thread < n := by
    clear h below
    induction log with
    | nil => exact ⟨0, nofun⟩
    | cons e log ih =>
      obtain ⟨n, hn⟩ := ih
      refine ⟨max (e.thread + 1) n, fun e' he' => ?_⟩
      rcases List.mem_cons.1 he' with rfl | he'
      · omega
      · have := hn e' he'
        omega
  have hall := below n
  rwa [List.filter_eq_self.2 fun e he => decide_eq_true (hn e he)] at hall

/-- A thread that goes by its tariff has earned what it has spent. -/
theorem spent_pastOf_le {k : κ} {i : Nat} (tag : ∀ e ∈ log, e.thread = i → e.tag = k)
    (kept : Each (fun e pre => (t e.tag).guard (pastOf e.thread pre) e.op) log) :
    (t k).spent (pastOf i log) ≤ (t k).earned (pastOf i log) := by
  induction log with
  | nil => exact Nat.le_refl _
  | cons e log ih =>
    have ih := ih (fun e' he' => tag e' (.tail _ he')) kept.2
    rw [Workshop.pastOf_cons]
    split
    · rename_i hi
      have hguard : (t e.tag).guard (pastOf e.thread log) e.op := kept.1
      rw [tag e (.head _) hi, hi] at hguard
      unfold Tariff.spent Tariff.earned at ih ⊢
      rw [List.countP_cons, List.countP_cons]
      dsimp only
      split
      · have hlt := hguard ‹_›
        unfold Tariff.spent Tariff.earned at hlt
        omega
      · omega
    · exact ih

/-- When each thread goes by the tariff of what it was started for, no more is spent than is earned. -/
theorem spent_le_earned (tags : ∀ e ∈ log, ∀ e' ∈ log, e.thread = e'.thread → e.tag = e'.tag)
    (kept : Each (fun e pre => (t e.tag).guard (pastOf e.thread pre) e.op) log) :
    log.countP (fun e => (t e.tag).spends e.op) ≤ log.countP fun e => (t e.tag).earns ⟨e.op, e.answer⟩ := by
  refine countP_le_of_threads fun i => ?_
  by_cases hnone : ∃ e ∈ log, e.thread = i
  · obtain ⟨e₀, he₀, rfl⟩ := hnone
    have tag (e) (he : e ∈ log) (h : e.thread = e₀.thread) : e.tag = e₀.tag := tags e he e₀ he₀ h
    -- all events of the thread go by one tariff
    have same {f g : Event κ σ Op Out → Bool} (h : ∀ e, e.tag = e₀.tag → f e = g e) :
        (log.filter (·.thread = e₀.thread)).countP f = (log.filter (·.thread = e₀.thread)).countP g := by
      refine List.countP_congr fun e he => ?_
      obtain ⟨he, hi⟩ := List.mem_filter.1 he
      rw [h e (tag e he (of_decide_eq_true hi))]
    have hle := spent_pastOf_le tag kept
    unfold Tariff.spent Tariff.earned pastOf at hle
    rw [List.countP_map, List.countP_map] at hle
    calc (log.filter (·.thread = e₀.thread)).countP (fun e => (t e.tag).spends e.op)
      _ = (log.filter (·.thread = e₀.thread)).countP fun e => (t e₀.tag).spends e.op :=
        same fun e he => by rw [he]
      _ ≤ (log.filter (·.thread = e₀.thread)).countP fun e => (t e₀.tag).earns ⟨e.op, e.answer⟩ := hle
      _ = (log.filter (·.thread = e₀.thread)).countP fun e => (t e.tag).earns ⟨e.op, e.answer⟩ :=
        same fun e he => by rw [he]
  · rw [List.filter_eq_nil_iff.2 fun e he => by simpa using fun hi => hnone ⟨e, he, hi⟩]
    exact Nat.le_refl _

end Runs

/-! ## Windows -/

/-- With at most `m` in any window of length `w`, there are at most `n * m` in `n` windows. -/
theorem countP_le_of_windows {l : List ε} {p : ε → Bool} {w m : Nat} (clock : ε → Nat) (start : Nat)
    (h : ∀ a, l.countP (fun e => p e ∧ a ≤ clock e ∧ clock e < a + w) ≤ m) (n : Nat) :
    l.countP (fun e => p e ∧ start ≤ clock e ∧ clock e < start + n * w) ≤ n * m := by
  induction n with
  | zero =>
    rw [List.countP_eq_zero.2 fun e _ => by simp]
    exact Nat.zero_le _
  | succ n ih =>
    have hlast := h (start + n * w)
    calc l.countP (fun e => p e ∧ start ≤ clock e ∧ clock e < start + (n + 1) * w)
      _ ≤ l.countP (fun e => p e ∧ start ≤ clock e ∧ clock e < start + n * w) +
          l.countP (fun e => p e ∧ start + n * w ≤ clock e ∧ clock e < start + n * w + w) := by
        clear h ih hlast
        induction l with
        | nil => exact Nat.le_refl _
        | cons e l ih =>
          rw [List.countP_cons, List.countP_cons, List.countP_cons]
          have hmul : (n + 1) * w = n * w + w := Nat.succ_mul n w
          by_cases hp : p e = true
          · simp only [hp, true_and, decide_eq_true_eq] at ih ⊢
            split
            · rename_i hin
              by_cases hlt : clock e < start + n * w
              · rw [if_pos ⟨hin.1, hlt⟩]
                omega
              · rw [if_pos (c := start + n * w ≤ clock e ∧ _) (by omega)]
                omega
            · omega
          · simp only [hp, false_and, decide_false, Bool.false_eq_true, if_false] at ih ⊢
            exact ih
      _ ≤ (n + 1) * m := by
        rw [Nat.succ_mul]
        exact Nat.add_le_add ih hlast

end Didicafe.Effect
