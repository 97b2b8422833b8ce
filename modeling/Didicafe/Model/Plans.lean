/-
Plans and the tokens sold for them: the checks of plan input (`web/admin.rs`), and the handlers of `web/api.rs` that
create and edit plans and generate tokens.
-/
import Didicafe.Model.Codes
import Didicafe.Model.Handlers

namespace Didicafe

/-- A handler that returns a `Result` with an `AppError`. -/
abbrev Api := Effect.Fallible AppError Op Op.Out

namespace Api

variable {α : Type}

/-- A step that only computes a `Result`. -/
def ofExcept (x : Except AppError α) : Api α := ExceptT.mk (pure x)

/-- `.await.map_err(AppError::Internal)?`. -/
def internal (x : App α) : Api α := ExceptT.mk (x.run >>= fun r => pure (r.mapError .internal))

/-- `.await.ok()`. -/
def ignore (x : App α) : Api Unit := ExceptT.lift (x.run >>= fun _ => pure ())

/-- A handler without the body of its answer. -/
def void (x : Api α) : Api Unit := do
  let _ ← x
  return ()

section Exec

open Effect

variable (h : Handler Op Op.Out World) (w : World)

@[simp] theorem exec_ofExcept (x : Except AppError α) : Fallible.exec h (ofExcept x) w = (x, w) := rfl

@[simp] theorem exec_internal (x : App α) : Fallible.exec h (internal x) w =
    ((Fallible.exec h x w).1.mapError .internal, (Fallible.exec h x w).2) := by
  show Prog.run h (x.run >>= fun r => pure (r.mapError AppError.internal)) w = _
  rw [Prog.run_bind]; rfl

@[simp] theorem exec_ignore (x : App α) : Fallible.exec h (ignore x) w = (.ok (), (Fallible.exec h x w).2) := by
  show Prog.run h ((x.run >>= fun _ => pure ()) >>= fun a => pure (Except.ok a)) w = _
  rw [Prog.run_bind, Prog.run_bind]; rfl

section Sql

variable {env : Op → Option Err} {q : Sql}

/-- A statement that is not made to fail. -/
theorem exec_internal_of_none (he : env (.sql q) = none) : Fallible.exec (failing env) (internal (sql q)) w =
    ((q.run w.now w.db.tables).1.mapError .internal, { w with db := (w.db.exec w.now q).2 }) := by
  rw [exec_internal, exec_sql_of_none w he]

/-- A statement that is made to fail. -/
theorem exec_internal_of_some {e : Err} (he : env (.sql q) = some e) :
    Fallible.exec (failing env) (internal (sql q)) w = (.error (.internal e), w) := by
  rw [exec_internal, exec_sql_of_some w he]; rfl

theorem exec_internal_query {r : q.Out} (he : env (.sql q) = none)
    (hq : q.run w.now w.db.tables = (.ok r, w.db.tables)) :
    Fallible.exec (failing env) (internal (sql q)) w = (.ok r, w) := by
  rw [exec_internal, exec_query w he hq]; rfl

end Sql

end Exec

end Api

/-- The length of a name is counted in bytes. -/
def validatePlanInput (name : String) (duration price : Int) : Except AppError Unit :=
  if name = "" then .error (.badRequest "admin.error.name_empty")
  else if name.utf8ByteSize > 100 then .error (.badRequest "admin.error.name_too_long")
  else if duration ≤ 0 then .error (.badRequest "admin.error.duration_positive")
  else if duration > 1440 then .error (.badRequest "admin.error.duration_max")
  else if price < 0 then .error (.badRequest "admin.error.price_negative")
  else .ok ()

/-- `POST /api/plans`, with the id of the new plan. -/
def apiCreatePlan (adminUser name : String) (durationMinutes priceAriary : Int) : Api Int := do
  Api.ofExcept (validatePlanInput name durationMinutes priceAriary)
  let id ← Api.internal (sql (.createPlan name durationMinutes priceAriary))
  Api.ignore (sql (.auditLog adminUser "create_plan" (some "plan") none (some name)))
  return id

/-- `PUT /api/plans/{id}`. -/
def apiUpdatePlan (adminUser : String) (id : Int) (name : String) (durationMinutes priceAriary : Int) (active : Bool) :
    Api Int := do
  Api.ofExcept (validatePlanInput name durationMinutes priceAriary)
  let updated ← Api.internal (sql (.updatePlan id name durationMinutes priceAriary active))
  if updated = false then throw (.notFound s!"plan {id} not found")
  else
    Api.ignore (sql (.auditLog adminUser "update_plan" (some "plan") (some id) none))
    return id

/-- `PATCH /api/plans/{id}/active`. -/
def apiTogglePlanActive (id : Int) (active : Bool) : Api (Int × Bool) := do
  match ← Api.internal (sql (.getPlan id)) with
  | none => throw (.notFound s!"plan {id} not found")
  | some plan =>
    -- the other fields are written back as they were read
    let updated ← Api.internal (sql (.updatePlan id plan.name plan.durationMinutes plan.priceAriary active))
    if updated = false then throw (.notFound s!"plan {id} not found")
    else return (id, active)

/-- The checks of a request to generate tokens, before its plan is looked up. -/
def validateGenerateRequest (name : String) (count : Nat) : Except AppError Unit :=
  if name = "" then .error (.badRequest "name must not be empty")
  else if name.utf8ByteSize > 200 then .error (.badRequest "name must be 200 characters or less")
  else if count = 0 then .error (.badRequest "count must be > 0")
  else if count > 100 then .error (.badRequest "count must be <= 100")
  else .ok ()

/-- `POST /api/tokens/generate`, for the draws of its codes. -/
def apiGenerateTokens (c : TokenConfig) (name : String) (planId : Int) (count : Nat) (draws : Nat → Draws c) :
    Api (List String) := do
  Api.ofExcept (validateGenerateRequest name count)
  match ← Api.internal (sql (.getPlan planId)) with
  | none => throw (.notFound s!"plan {planId} not found")
  | some plan =>
    if plan.active = false then throw (.badRequest s!"plan '{plan.name}' is not active")
    else Api.internal (generateTokens c planId count (some name) draws)

end Didicafe
