/-
What the code takes from its base crates: anyhow errors with their context, chrono durations and
the integer casts.
-/
import Didicafe.Model.Time
import Mathlib.Algebra.Group.Int.Defs

namespace Didicafe

/-- An `anyhow::Error`: a message, another error with a context in front, an error of the database
driver, or a panic of the called code. -/
inductive Err where
  | anyhow (text : String)
  | context (text : String) (source : Err)
  | sqlx (text : String)
  | panic (text : String)
deriving DecidableEq, Repr

/-- `with_context`. -/
def withContext {α : Type} (text : String) : Except Err α → Except Err α
  | .ok a => .ok a
  | .error e => .error (.context text e)

/-- `x as u64` of an `i64`. -/
def asU64 (x : Int) : Nat := if 0 ≤ x then x.toNat else (x + 2 ^ 64).toNat

/-- `chrono::Duration::minutes`, in seconds; it panics when the milliseconds exceed an `i64`. -/
def durationMinutes (minutes : Int) : Except Err Int :=
  if -9223372036854775 ≤ minutes * 60 ∧ minutes * 60 ≤ 9223372036854775 then .ok (minutes * 60)
  else .error (.panic "TimeDelta::minutes out of bounds")

/-- `now + duration` of a `DateTime<Utc>`, in nanoseconds; it panics outside of chrono's years. -/
def addDuration (now seconds : Int) : Except Err Int :=
  let t := now + seconds * nanosPerSec
  if InRange (t / nanosPerSec) then .ok t else .error (.panic "DateTime + TimeDelta overflowed")

/-- How the binary was compiled: with overflow checks, or without them as the release profile is. -/
inductive Build where
  | debug
  | release
deriving DecidableEq, Repr

def FitsI64 (x : Int) : Prop := -9223372036854775808 ≤ x ∧ x ≤ 9223372036854775807

instance (x : Int) : Decidable (FitsI64 x) := inferInstanceAs (Decidable (_ ∧ _))

/-- An operation on `i64` with the exact result `x`: outside of the range it panics or wraps around. -/
def Build.i64 (b : Build) (op : String) (x : Int) : Except Err Int :=
  if FitsI64 x then .ok x
  else
    match b with
    | .debug => .error (.panic s!"attempt to {op} with overflow")
    | .release => .ok (x.bmod 18446744073709551616)

theorem Build.i64_fits {b : Build} {op : String} {x y : Int} (h : b.i64 op x = .ok y) : FitsI64 y := by
  unfold Build.i64 at h
  split at h
  · cases h; assumption
  · cases b with
    | debug => cases h
    | release =>
      cases h
      have hle := Int.le_bmod (x := x) (m := 18446744073709551616) (by omega)
      have hlt := Int.bmod_lt (x := x) (m := 18446744073709551616) (by omega)
      unfold FitsI64
      omega

theorem Build.i64_of_fits {x : Int} (h : FitsI64 x) (b : Build) (op : String) : b.i64 op x = .ok x := if_pos h

theorem addDuration_ok {now seconds t : Int} (h : addDuration now seconds = .ok t) :
    t = now + seconds * nanosPerSec ∧ InRange (t / nanosPerSec) := by
  unfold addDuration at h
  simp only at h
  split at h <;> cases h
  exact ⟨rfl, ‹_›⟩

theorem durationMinutes_ok {m d : Int} (h : durationMinutes m = .ok d) : d = m * 60 := by
  unfold durationMinutes at h
  split at h <;> cases h
  rfl

/-- The cast of a duration is never below it: a negative one becomes a very large one. -/
theorem le_asU64 {m d : Int} (h : durationMinutes m = .ok d) : d ≤ asU64 d := by
  unfold durationMinutes at h
  unfold asU64
  split at h <;> cases h
  split <;> omega

theorem asU64_of_nonneg {x : Int} (h : 0 ≤ x) : (asU64 x : Int) = x := by
  unfold asU64; rw [if_pos h]; omega

end Didicafe
