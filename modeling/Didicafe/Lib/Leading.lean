/-
The leading bits of a bit vector: agreement on the first `p` of them, and the mask that compares them.
-/
import Mathlib.Data.Nat.Notation

namespace BitVec

variable {w : Nat} {a b : BitVec w} {p : Nat}

/-- The first `p` bits are equal, counted from the most significant one. -/
def Agree (p : Nat) (a b : BitVec w) : Prop := ∀ i < p, a.getMsbD i = b.getMsbD i

instance : Decidable (Agree p a b) := by unfold Agree; infer_instance

@[simp] theorem agree_zero : Agree 0 a b := fun _ h => absurd h (Nat.not_lt_zero _)

/-- The mask keeps the first `p` bits. -/
theorem getMsbD_leading {i : Nat} (hp : p ≤ w) :
    (a &&& allOnes w <<< (w - p)).getMsbD i = (decide (i < p) && a.getMsbD i) := by
  by_cases hi : i < p
  · have : i + (w - p) < w := by omega
    simp [hi, this]
  · have : ¬ i + (w - p) < w := by omega
    simp [hi, this]

theorem leading_eq_iff (hp : p ≤ w) :
    a &&& allOnes w <<< (w - p) = b &&& allOnes w <<< (w - p) ↔ Agree p a b := by
  constructor
  · intro h i hi
    have hbit := congrArg (BitVec.getMsbD · i) h
    simpa only [getMsbD_leading hp, hi, decide_true, Bool.true_and] using hbit
  · intro h
    refine eq_of_getMsbD_eq fun i _ => ?_
    rw [getMsbD_leading hp, getMsbD_leading hp]
    by_cases hi : i < p
    · rw [h i hi]
    · simp only [hi, decide_false, Bool.false_and]

end BitVec
