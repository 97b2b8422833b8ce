/-
The session part of the configuration and of its validation. The grace period is not checked.
-/
import Didicafe.Model.Std

namespace Didicafe

structure SessionConfig where
  cleanupIntervalSeconds : Nat
  gracePeriodSeconds : Int
  retentionDays : Int
  auditRetentionDays : Int
deriving DecidableEq, Repr

def defaultSessionRetentionDays : Int := 90

def defaultAuditRetentionDays : Int := 365

/-- `anyhow::ensure!`. -/
def ensure (p : Prop) [Decidable p] (text : String) : Except Err Unit := if p then .ok () else .error (.anyhow text)

@[simp] theorem ensure_ok {p : Prop} [Decidable p] {text : String} {u : Unit} : ensure p text = .ok u ↔ p := by
  unfold ensure
  split <;> simp_all

@[simp] theorem ensure_bind_ok {α : Type} {p : Prop} [Decidable p] {text : String} {f : Unit → Except Err α} {a : α} :
    (ensure p text >>= f) = .ok a ↔ p ∧ f () = .ok a := by
  unfold ensure
  split
  · exact (and_iff_right ‹_›).symm
  · constructor
    · rintro ⟨⟩
    · rintro ⟨h, -⟩
      contradiction

/-- The session checks of `Config::validate`. -/
def SessionConfig.validate (c : SessionConfig) : Except Err Unit := do
  ensure (0 < c.cleanupIntervalSeconds) "session.cleanup_interval_seconds must be > 0"
  ensure (0 < c.retentionDays) s!"session.retention_days must be > 0, got {c.retentionDays}"
  ensure (0 < c.auditRetentionDays) s!"session.audit_retention_days must be > 0, got {c.auditRetentionDays}"

end Didicafe
