/-
Hash maps as association lists with distinct keys, and what their `retain` keeps.
-/
import Mathlib.Data.List.AList

namespace Didicafe

/-- A `HashMap`. The order of its entries means nothing. -/
abbrev HashMap (κ α : Type) := AList fun _ : κ => α

namespace HashMap

variable {κ α : Type}

def len (m : HashMap κ α) : Nat := m.entries.length

/-- One entry under the closure of `retain`. -/
def keep (f : κ → α → Option α) (e : Sigma fun _ : κ => α) : Option (Sigma fun _ : κ => α) :=
  (f e.1 e.2).map fun a => ⟨e.1, a⟩

theorem keys_filterMap_sublist (f : κ → α → Option α) (l : List (Sigma fun _ : κ => α)) :
    (l.filterMap (keep f)).keys.Sublist l.keys := by
  induction l with
  | nil => exact .slnil
  | cons e l ih =>
    rw [List.filterMap_cons]
    unfold keep
    cases f e.1 e.2 with
    | none => exact ih.cons _
    | some a => exact ih.cons_cons _

/-- `retain`, with a closure that may also change the values it keeps. -/
def retain (f : κ → α → Option α) (m : HashMap κ α) : HashMap κ α where
  entries := m.entries.filterMap (keep f)
  nodupKeys := (keys_filterMap_sublist f m.entries).nodup m.nodupKeys

theorem len_filterMap_keep (f : κ → α → Option α) (l : List (Sigma fun _ : κ => α)) :
    (l.filterMap (keep f)).length = l.countP fun e => (f e.1 e.2).isSome := by
  induction l with
  | nil => rfl
  | cons e l ih =>
    rw [List.filterMap_cons, List.countP_cons, ← ih]
    unfold keep
    cases f e.1 e.2 with
    | none => rfl
    | some a => rfl

/-- `retain` keeps as many entries as its closure accepts. -/
theorem len_retain (f : κ → α → Option α) (m : HashMap κ α) :
    (m.retain f).len = m.entries.countP fun e => (f e.1 e.2).isSome := len_filterMap_keep f m.entries

variable [DecidableEq κ]

/-- An insertion adds one entry at most. -/
theorem len_insert_le (m : HashMap κ α) (k : κ) (a : α) : len (m.insert k a) ≤ m.len + 1 := by
  unfold len
  rw [AList.entries_insert, List.length_cons]
  exact Nat.succ_le_succ (List.kerase_sublist k m.entries).length_le

@[simp] theorem lookup_retain (f : κ → α → Option α) (m : HashMap κ α) (k : κ) :
    (m.retain f).lookup k = (m.lookup k).bind (f k) := by
  ext b
  rw [← Option.mem_def, ← Option.mem_def, AList.mem_lookup_iff, Option.mem_bind_iff]
  constructor
  · intro h
    obtain ⟨⟨k', v⟩, he, hf⟩ := List.mem_filterMap.1 h
    obtain ⟨b', hb, heq⟩ := Option.map_eq_some_iff.1 hf
    cases heq
    exact ⟨v, AList.mem_lookup_iff.2 he, hb⟩
  · rintro ⟨v, hv, hb⟩
    refine List.mem_filterMap.2 ⟨⟨k, v⟩, AList.mem_lookup_iff.1 hv, ?_⟩
    exact Option.map_eq_some_iff.2 ⟨b, hb, rfl⟩

/-- The entry of a key after an insertion. -/
theorem lookup_insert_eq (m : HashMap κ α) (k k' : κ) (a : α) :
    (m.insert k a).lookup k' = if k' = k then some a else m.lookup k' := by
  split
  · subst k'
    exact AList.lookup_insert m
  · exact AList.lookup_insert_ne ‹_›

end HashMap

end Didicafe
