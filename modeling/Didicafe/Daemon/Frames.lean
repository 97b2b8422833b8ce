/-
A part of the world changes only while a request or job is under way that has it in its footprint, whatever else is
under way and whatever fails.
-/
import Didicafe.Store.History

namespace Didicafe

open Effect Runs

/-- The others leave the part alone, and so do all operations. -/
def leaves (p : Part) : Rules Op Op.Out World (Option Err) where
  rely w w' := p.Same w w'
  allowed _ op := op.part ≠ some p
  handler := World.exec
  refl := .refl p
  trans := .trans
  keeps fault _ _ h := World.same_exec h fault

/-- No request is started that has the part in its footprint. -/
def HouseLabel.Without {c : CafeConfig} (p : Part) : HouseLabel c → Prop
  | .start k => p ∉ k.footprint
  | _ => True

instance {c : CafeConfig} {p : Part} : ∀ l : HouseLabel c, Decidable (l.Without p)
  | .start k => inferInstanceAs (Decidable (p ∉ k.footprint))
  | .advance .. | .elapse _ => inferInstanceAs (Decidable True)

theorem leaves_program {c : CafeConfig} {p : Part} {k : HouseCall c} (h : p ∉ k.footprint) (w : World) :
    (leaves p).Heeds k.program w :=
  (Within.program k).heeds fun _ _ hop => Op.part_ne_of_within hop h

/-- Nothing under way writes the part. -/
theorem leaves_step {c : CafeConfig} {p : Part} {s s' : House c} {l : HouseLabel c} (hok : l.Without p)
    (h : ∀ t ∈ s.threads, (leaves p).Heeds t.rest s.shared) (hs : (house c).step s l = some s') :
    p.Same s.shared s'.shared ∧ ∀ t ∈ s'.threads, (leaves p).Heeds t.rest s'.shared := by
  cases l with
  | start k =>
    cases hs
    refine ⟨.refl p _, fun t ht => ?_⟩
    rcases List.mem_append.1 ht with ht | ht
    · exact h t ht
    · rw [List.mem_singleton.1 ht]
      exact leaves_program hok _
  | advance i fault => exact (leaves p).heeds_advance h hs
  | elapse nanos =>
    cases hs
    have same : p.Same s.shared { s.shared with now := s.shared.now + nanos } := by cases p <;> simp [Part.Same]
    exact ⟨same, fun t ht => (h t ht).later same⟩

/-- A part of the world stays what it is through every run that starts with nothing under way and in which no request
is started that may write it. -/
theorem part_left_alone {c : CafeConfig} {p : Part} {s s' : House c} (hidle : ∀ t ∈ s.threads, ∃ a, t.rest = .done a)
    (hp : Path (house c) (fun _ l => l.Without p) s s') : p.Same s.shared s'.shared := by
  have run : p.Same s.shared s'.shared ∧ ∀ t ∈ s'.threads, (leaves p).Heeds t.rest s'.shared := by
    refine hp.invariant
      (I := fun s' => p.Same s.shared s'.shared ∧ ∀ t ∈ s'.threads, (leaves p).Heeds t.rest s'.shared)
      (fun s₁ l s₂ h hok hs => ?_) ⟨.refl p _, fun t ht => ?_⟩
    · obtain ⟨hsame, hthreads⟩ := leaves_step hok h.2 hs
      exact ⟨h.1.trans hsame, hthreads⟩
    · obtain ⟨a, ha⟩ := hidle t ht
      rw [ha]
      trivial
  exact run.1

/-- A guest enters the other code, and the expired sessions are cleaned up. -/
def anotherGuest : List (HouseLabel .small) :=
  .start (.portalAuth "CAFE-BBBB-BBBB" "02:00:00:00:00:02" "10.0.0.3") :: performs 3 5 ++
    .start .cleanup :: performs 4 3

theorem part_left_alone_anotherGuest : ∃ s s', (house .small).trace newHouse oneGuest = some s ∧
    (house .small).trace s anotherGuest = some s' ∧ s.shared.db.tables.session ≠ s'.shared.db.tables.session ∧
      Part.plan.Same s.shared s'.shared := by
  have hwithout : ∀ l ∈ anotherGuest, l.Without .plan := by decide
  refine ⟨_, _, rfl, rfl, by decide, part_left_alone (fun t ht => ?_)
    (Machine.path_trace_of (t := anotherGuest) (fun l hl _ => hwithout l hl) rfl)⟩
  rcases ht with _ | ⟨_, _ | ⟨_, _ | ⟨_, ht⟩⟩⟩
  · exact ⟨_, rfl⟩
  · exact ⟨_, rfl⟩
  · exact ⟨_, rfl⟩
  · cases ht

end Didicafe
