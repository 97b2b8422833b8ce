/-
Sets whose elements time out: each key has at most one expiry, and is in the set until then.
-/
import Mathlib.Logic.Function.Basic

namespace Didicafe

abbrev TimedSet (K T : Type) := K → Option T

namespace TimedSet

variable {K T : Type}

def empty : TimedSet K T := fun _ => none

section Update

variable [DecidableEq K]

/-- Adds `k` until `e`, or moves its expiry to `e`. -/
def insert (s : TimedSet K T) (k : K) (e : T) : TimedSet K T := Function.update s k (some e)

def erase (s : TimedSet K T) (k : K) : TimedSet K T := Function.update s k none

@[simp] theorem insert_self (s : TimedSet K T) (k : K) (e : T) : s.insert k e k = some e :=
  Function.update_self ..

theorem insert_of_ne (s : TimedSet K T) {k k' : K} (h : k' ≠ k) (e : T) : s.insert k e k' = s k' :=
  Function.update_of_ne h ..

@[simp] theorem erase_self (s : TimedSet K T) (k : K) : s.erase k k = none := Function.update_self ..

theorem erase_of_ne (s : TimedSet K T) {k k' : K} (h : k' ≠ k) : s.erase k k' = s k' :=
  Function.update_of_ne h ..

/-- Erases several keys, one after the other. -/
def eraseAll (s : TimedSet K T) (ks : List K) : TimedSet K T := ks.foldl erase s

theorem eraseAll_of_mem (s : TimedSet K T) {ks : List K} {k : K} (h : k ∈ ks) : s.eraseAll ks k = none := by
  have keep : ∀ (ks : List K) (s : TimedSet K T), s k = none → s.eraseAll ks k = none := by
    intro ks
    induction ks with
    | nil => exact fun _ hs => hs
    | cons a ks ih =>
      refine fun s hs => ih (s.erase a) ?_
      by_cases ha : k = a
      · rw [ha, erase_self]
      · rw [erase_of_ne s ha, hs]
  induction ks generalizing s with
  | nil => cases h
  | cons a ks ih =>
    rcases List.mem_cons.1 h with rfl | h
    · exact keep ks _ (erase_self s k)
    · exact ih (s.erase a) h

theorem eraseAll_of_not_mem (s : TimedSet K T) {ks : List K} {k : K} (h : k ∉ ks) : s.eraseAll ks k = s k := by
  induction ks generalizing s with
  | nil => rfl
  | cons a ks ih =>
    obtain ⟨hne, h⟩ := not_or.1 (List.mem_cons.not.1 h)
    exact (ih (s.erase a) h).trans (erase_of_ne s hne)

/-- Adds several keys, one after the other. -/
def insertAll (s : TimedSet K T) (l : List (K × T)) : TimedSet K T := l.foldl (fun s x => s.insert x.1 x.2) s

theorem insertAll_of_mem (s : TimedSet K T) {l : List (K × T)} {k : K} {e : T} (h : (k, e) ∈ l)
    (hl : ∀ e', (k, e') ∈ l → e' = e) : s.insertAll l k = some e := by
  have keep : ∀ (l : List (K × T)) (s : TimedSet K T), (∀ e', (k, e') ∈ l → e' = e) → s k = some e →
      s.insertAll l k = some e := by
    intro l
    induction l with
    | nil => exact fun _ _ hs => hs
    | cons a l ih =>
      refine fun s hl hs => ih (s.insert a.1 a.2) (fun e' h => hl e' (List.mem_cons_of_mem _ h)) ?_
      by_cases ha : k = a.1
      · rw [← ha, insert_self, hl a.2 (by rw [ha]; exact List.mem_cons_self ..)]
      · rw [insert_of_ne s ha, hs]
  induction l generalizing s with
  | nil => cases h
  | cons a l ih =>
    have hl' : ∀ e', (k, e') ∈ l → e' = e := fun e' h => hl e' (List.mem_cons_of_mem _ h)
    rcases List.mem_cons.1 h with rfl | h
    · exact keep l _ hl' (insert_self s k e)
    · exact ih (s.insert a.1 a.2) h hl'

end Update

section Mem

variable [LT T]

/-- `k` is in the set at instant `now`. -/
def Mem (s : TimedSet K T) (now : T) (k : K) : Prop := ∃ e, s k = some e ∧ now < e

instance [DecidableLT T] (s : TimedSet K T) (now : T) (k : K) : Decidable (s.Mem now k) :=
  match h : s k with
  | none => isFalse fun ⟨_, he, _⟩ => by rw [h] at he; cases he
  | some e => decidable_of_iff (now < e)
      ⟨fun hlt => ⟨e, h, hlt⟩, fun ⟨_, he, hlt⟩ => by rw [h] at he; cases he; exact hlt⟩

theorem not_mem_of_none {s : TimedSet K T} {k : K} (h : s k = none) (now : T) : ¬ s.Mem now k :=
  fun ⟨_, he, _⟩ => by rw [h] at he; cases he

end Mem

end TimedSet

end Didicafe
