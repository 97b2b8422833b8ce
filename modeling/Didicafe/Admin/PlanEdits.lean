/-
Edits of one plan that overlap. `PATCH /api/plans/{id}/active` reads the plan and writes all of its columns back, so an
edit that is written in between is lost. When none is, the plan is as after the same requests one after another, in the
order of their writes.
-/
import Didicafe.Lib.Runs
import Didicafe.Model.Plans
import Didicafe.Store.Ledger

namespace Didicafe

open Effect Runs

/-- The requests that edit a plan: `PATCH /api/plans/{id}/active` and `PUT /api/plans/{id}`. -/
inductive PlanEdit where
  | toggle (active : Bool)
  | update (name : String) (durationMinutes priceAriary : Int) (active : Bool)
deriving DecidableEq

/-- A request, with the id and the flag of its answer. -/
abbrev EditProg := Prog Op Op.Out (Except AppError (Int × Option Bool))

namespace PlanEdit

/-- The handler of the request. -/
def program (adminUser : String) (id : Int) : PlanEdit → EditProg
  | .toggle active => (do
    let r ← apiTogglePlanActive id active
    return (r.1, some r.2) : Api (Int × Option Bool)).run
  | .update name durationMinutes priceAriary active => (do
    let r ← apiUpdatePlan adminUser id name durationMinutes priceAriary active
    return (r, none) : Api (Int × Option Bool)).run

/-- What the request is to do to the row. -/
def apply : PlanEdit → Plan → Plan
  | .toggle active, p => { p with active := active }
  | .update name durationMinutes priceAriary active, p =>
    { p with name := name, durationMinutes := durationMinutes, priceAriary := priceAriary, active := active }

def Valid : PlanEdit → Prop
  | .toggle _ => True
  | .update name durationMinutes priceAriary _ => validatePlanInput name durationMinutes priceAriary = .ok ()

end PlanEdit

abbrev EditThread := Thread PlanEdit Op Op.Out (Except AppError (Int × Option Bool))

/-- The requests under way and those that have been answered, over the world. -/
abbrev EditRun := Pool PlanEdit Op Op.Out (Except AppError (Int × Option Bool)) World

inductive EditLabel where
  | request (r : PlanEdit)
  | advance (i : Nat) (fault : Option Err)
  | elapse (nanos : Nat)

/-- The row of the plan. -/
def EditRun.plan (s : EditRun) (id : Int) : Option Plan := s.shared.db.tables.planById id

def EditRun.step (adminUser : String) (id : Int) (s : EditRun) : EditLabel → Option EditRun
  | .request r => some (s.spawn ⟨r, r.program adminUser id⟩)
  | .advance i fault => s.advance (World.exec fault) i
  | .elapse nanos => some { s with shared := { s.shared with now := s.shared.now + nanos } }

/-- Any world, and no request under way. -/
def planEdits (adminUser : String) (id : Int) (w : World) : Machine EditRun EditLabel where
  init s := s = ⟨w, []⟩
  step := EditRun.step adminUser id

/-- The requests one after another, none of their statements failing. -/
def serially (adminUser : String) (id : Int) (w : World) (order : List PlanEdit) : World :=
  order.foldl (fun w r => ((r.program adminUser id).run noFault w).2) w

variable {adminUser : String} {id : Int} {w : World} {s s' : EditRun}

/-! ## One request alone -/

theorem exec_updatePlan (w : World) (id : Int) (name : String) (durationMinutes priceAriary : Int) (active : Bool) :
    Fallible.exec noFault (Api.internal (sql (.updatePlan id name durationMinutes priceAriary active))) w =
      (.ok (w.db.tables.planById id).isSome,
        { w with db := (w.db.exec w.now (.updatePlan id name durationMinutes priceAriary active)).2 }) :=
  Api.exec_internal_of_none w rfl

theorem exec_apiTogglePlanActive (w : World) (id : Int) (active : Bool) :
    ∃ r w', Fallible.exec noFault (apiTogglePlanActive id active) w = (r, w') ∧
      w'.db.tables.planById id = (w.db.tables.planById id).map (PlanEdit.toggle active).apply := by
  have hget : Fallible.exec noFault (Api.internal (sql (.getPlan id))) w = (.ok (w.db.tables.planById id), w) :=
    Api.exec_internal_query w rfl rfl
  unfold apiTogglePlanActive
  rw [Fallible.exec_bind_ok _ hget]
  cases hp : w.db.tables.planById id with
  | none => exact ⟨_, w, rfl, hp⟩
  | some p =>
    have hupd := exec_updatePlan w id p.name p.durationMinutes p.priceAriary active
    rw [hp] at hupd
    refine ⟨_, _, Fallible.exec_bind_ok _ hupd _, Tables.planById_updatePlan_self.trans ?_⟩
    rw [hp]; rfl

theorem exec_apiUpdatePlan (w : World) (adminUser : String) (id : Int) {name : String}
    {durationMinutes priceAriary : Int} (active : Bool)
    (hv : validatePlanInput name durationMinutes priceAriary = .ok ()) :
    ∃ r w', Fallible.exec noFault (apiUpdatePlan adminUser id name durationMinutes priceAriary active) w = (r, w') ∧
      w'.db.tables.planById id =
        (w.db.tables.planById id).map (PlanEdit.update name durationMinutes priceAriary active).apply := by
  have hupd := exec_updatePlan w id name durationMinutes priceAriary active
  unfold apiUpdatePlan
  rw [hv, Fallible.exec_bind_ok _ (Api.exec_ofExcept ..), Fallible.exec_bind_ok _ hupd]
  cases hp : w.db.tables.planById id with
  | none => exact ⟨_, _, rfl, Tables.planById_updatePlan_self.trans (by rw [hp]; rfl)⟩
  | some p =>
    refine ⟨_, _, Fallible.exec_bind_ok _ (Api.exec_ignore ..) _, Tables.planById_updatePlan_self.trans ?_⟩
    rw [hp]; rfl

/-- A valid request alone edits the row as it is to do. -/
theorem PlanEdit.planById_run {r : PlanEdit} (hr : r.Valid) (w : World) :
    ((r.program adminUser id).run noFault w).2.db.tables.planById id = (w.db.tables.planById id).map r.apply := by
  cases r with
  | toggle active =>
    obtain ⟨r, w', hx, hplan⟩ := exec_apiTogglePlanActive w id active
    rw [← hplan]
    show (Fallible.exec noFault (apiTogglePlanActive id active >>= fun r =>
      pure (r.1, some r.2)) w).2.db.tables.planById id = _
    rw [Fallible.exec_bind, hx]
    cases r <;> rfl
  | update name durationMinutes priceAriary active =>
    obtain ⟨r, w', hx, hplan⟩ := exec_apiUpdatePlan w adminUser id active hr
    rw [← hplan]
    show (Fallible.exec noFault (apiUpdatePlan adminUser id name durationMinutes priceAriary active >>= fun r =>
      pure (r, none)) w).2.db.tables.planById id = _
    rw [Fallible.exec_bind, hx]
    cases r <;> rfl

theorem planById_serially {order : List PlanEdit} (h : ∀ r ∈ order, r.Valid) (w : World) :
    (serially adminUser id w order).db.tables.planById id =
      (w.db.tables.planById id).map fun p => order.foldl (fun p r => r.apply p) p := by
  induction order generalizing w with
  | nil => exact Option.map_id'.symm
  | cons r order ih =>
    unfold serially at ih ⊢
    rw [List.foldl_cons, ih (fun r' hr' => h r' (.tail _ hr')), PlanEdit.planById_run (h r (.head _)), Option.map_map]
    rfl

/-! ## Requests among others -/

/-- `PATCH` after it has read the plan. -/
def toggleWrite (id : Int) (active : Bool) (plan : Plan) : EditProg :=
  (do
    let r ← (do
      let updated ← Api.internal (sql (.updatePlan id plan.name plan.durationMinutes plan.priceAriary active))
      if updated = false then throw (.notFound s!"plan {id} not found")
      else return (id, active) : Api (Int × Bool))
    return (r.1, some r.2) : Api (Int × Option Bool)).run

/-- `PUT` after its checks. -/
def updateWrite (adminUser : String) (id : Int) (name : String) (durationMinutes priceAriary : Int) (active : Bool) :
    EditProg :=
  (do
    let r ← (do
      let updated ← Api.internal (sql (.updatePlan id name durationMinutes priceAriary active))
      if updated = false then throw (.notFound s!"plan {id} not found")
      else
        Api.ignore (sql (.auditLog adminUser "update_plan" (some "plan") (some id) none))
        return id : Api Int)
    return (r, none) : Api (Int × Option Bool)).run

/-- `PUT` after its edit. -/
def updateAudit (adminUser : String) (id : Int) : EditProg :=
  (do
    let r ← (do
      Api.ignore (sql (.auditLog adminUser "update_plan" (some "plan") (some id) none))
      return id : Api Int)
    return (r, none) : Api (Int × Option Bool)).run

/-- Where a request stands. -/
inductive EditStage (adminUser : String) (id : Int) : EditThread → Prop where
  | read {active : Bool} {p : EditProg} (hp : p = (PlanEdit.toggle active).program adminUser id) :
      EditStage adminUser id ⟨.toggle active, p⟩
  | toggle {active : Bool} {plan : Plan} {p : EditProg} (hp : p = toggleWrite id active plan) :
      EditStage adminUser id ⟨.toggle active, p⟩
  | update {name : String} {durationMinutes priceAriary : Int} {active : Bool} {p : EditProg}
      (hv : validatePlanInput name durationMinutes priceAriary = .ok ())
      (hp : p = updateWrite adminUser id name durationMinutes priceAriary active) :
      EditStage adminUser id ⟨.update name durationMinutes priceAriary active, p⟩
  | audit {r : PlanEdit} {p : EditProg} (hv : r.Valid) (hp : p = updateAudit adminUser id) :
      EditStage adminUser id ⟨r, p⟩
  | done {r : PlanEdit} {a : Int × Option Bool} (hv : r.Valid) : EditStage adminUser id ⟨r, .done (.ok a)⟩
  | failed {r : PlanEdit} {e : AppError} : EditStage adminUser id ⟨r, .done (.error e)⟩

/-- The request has edited the row. -/
def wrote (t : EditThread) : Bool :=
  match t.rest with
  | .done (.ok _) => true
  | .done (.error _) => false
  | .call (.sql (.auditLog ..)) _ => true
  | .call .. => false

theorem PlanEdit.stage_program (adminUser : String) (id : Int) (r : PlanEdit) :
    EditStage adminUser id ⟨r, r.program adminUser id⟩ ∧ wrote ⟨r, r.program adminUser id⟩ = false := by
  cases r with
  | toggle active => exact ⟨.read rfl, rfl⟩
  | update name durationMinutes priceAriary active =>
    cases hv : validatePlanInput name durationMinutes priceAriary with
    | error e =>
      have hp : (PlanEdit.update name durationMinutes priceAriary active).program adminUser id = .done (.error e) := by
        simp only [PlanEdit.program, apiUpdatePlan, hv]; rfl
      rw [hp]
      exact ⟨.failed, rfl⟩
    | ok u =>
      have hp : (PlanEdit.update name durationMinutes priceAriary active).program adminUser id =
          updateWrite adminUser id name durationMinutes priceAriary active := by
        simp only [PlanEdit.program, apiUpdatePlan, hv]; rfl
      rw [hp]
      exact ⟨.update hv rfl, rfl⟩

/-- What the next operation of a request does: it leaves the row alone, or it is the one edit of the request. -/
inductive EditStep (id : Int) (fault : Option Err) (w : World) (t t' : EditThread) (op : Op) : Prop where
  | idle (hwrote : wrote t' = wrote t)
      (hplan : (World.exec fault op w).2.db.tables.planById id = w.db.tables.planById id)
  | write {name : String} {durationMinutes priceAriary : Int} {active : Bool} (hbefore : wrote t = false)
      (hafter : wrote t' = true) (hfault : fault = none)
      (hop : op = .sql (.updatePlan id name durationMinutes priceAriary active))
      (hreq : t.tag = .toggle active ∨ t.tag = .update name durationMinutes priceAriary active)

section Write

variable {name : String} {durationMinutes priceAriary : Int} {active : Bool}

theorem exec_updatePlan_found : (World.exec none (.sql (.updatePlan id name durationMinutes priceAriary active)) w).1 =
    .ok (w.db.tables.planById id).isSome := rfl

theorem planById_exec (w : World) (id : Int) (name : String) (durationMinutes priceAriary : Int) (active : Bool) :
    (World.exec none (.sql (.updatePlan id name durationMinutes priceAriary active)) w).2.db.tables.planById id =
      (w.db.tables.planById id).map fun p =>
        { p with name := name, durationMinutes := durationMinutes, priceAriary := priceAriary, active := active } :=
  Tables.planById_updatePlan_self

theorem planById_exec_none (hp : w.db.tables.planById id = none) :
    (World.exec none (.sql (.updatePlan id name durationMinutes priceAriary active)) w).2.db.tables.planById id =
      w.db.tables.planById id := by
  rw [planById_exec, hp]; rfl

end Write

theorem EditStage.advance {r : PlanEdit} {op : Op} {next : op.Out → EditProg}
    (h : EditStage adminUser id ⟨r, .call op next⟩) (fault : Option Err) (w : World) :
    EditStage adminUser id ⟨r, next (World.exec fault op w).1⟩ ∧
      EditStep id fault w ⟨r, .call op next⟩ ⟨r, next (World.exec fault op w).1⟩ op := by
  cases h with
  | read hp =>
    cases hp
    cases fault with
    | some e => exact ⟨.failed, .idle rfl rfl⟩
    | none =>
      have hget : (World.exec none (.sql (.getPlan id)) w).1 = .ok (w.db.tables.planById id) := rfl
      rw [hget]
      cases hp : w.db.tables.planById id with
      | none => exact ⟨.failed, .idle rfl rfl⟩
      | some plan => exact ⟨.toggle rfl, .idle rfl rfl⟩
  | @toggle active plan _ hp =>
    cases hp
    cases fault with
    | some e => exact ⟨.failed, .idle rfl rfl⟩
    | none =>
      rw [exec_updatePlan_found]
      cases hp : w.db.tables.planById id with
      | none => exact ⟨.failed, .idle rfl (planById_exec_none hp)⟩
      | some p => exact ⟨.done trivial, .write rfl rfl rfl rfl (.inl rfl)⟩
  | update hv hp =>
    cases hp
    cases fault with
    | some e => exact ⟨.failed, .idle rfl rfl⟩
    | none =>
      rw [exec_updatePlan_found]
      cases hp : w.db.tables.planById id with
      | none => exact ⟨.failed, .idle rfl (planById_exec_none hp)⟩
      | some p => exact ⟨.audit hv rfl, .write rfl rfl rfl rfl (.inr rfl)⟩
  | audit hv hp =>
    cases hp
    cases fault with
    | some e => exact ⟨.done hv, .idle rfl rfl⟩
    | none => exact ⟨.done hv, .idle rfl rfl⟩

/-! ## Runs -/

/-- All requests so far have succeeded. -/
def EditRun.AllDone (s : EditRun) : Prop := ∀ t ∈ s.threads, ∃ a, t.rest = .done (.ok a)

/-- The row has the name, duration and price of the request. -/
def PlanEdit.IsIn (p : Plan) : PlanEdit → Prop
  | .toggle _ => False
  | .update name durationMinutes priceAriary _ =>
    p.name = name ∧ p.durationMinutes = durationMinutes ∧ p.priceAriary = priceAriary

/-- When all requests have succeeded, the row is as after the same requests one after another in some order; if one of
them edits name, duration and price, then these are as one of them has set them. -/
structure Serializable (adminUser : String) (id : Int) (w : World) (s : EditRun) : Prop where
  serial : s.AllDone → ∃ order : List PlanEdit, order.Perm (s.threads.map (·.tag)) ∧
    s.plan id = (serially adminUser id w order).db.tables.planById id
  kept : s.AllDone → (∃ t ∈ s.threads, ∃ p, t.tag.IsIn p) → ∀ p, s.plan id = some p → ∃ t ∈ s.threads, t.tag.IsIn p

/-- When a `PATCH` writes, the plan has the name, duration and price that it has read. -/
def TogglesFresh (id : Int) (s : EditRun) : EditLabel → Prop
  | .advance i none => ∀ active name durationMinutes priceAriary,
    s.pending i = some (.toggle active, .sql (.updatePlan id name durationMinutes priceAriary active)) →
    ∀ p, s.plan id = some p → p.name = name ∧ p.durationMinutes = durationMinutes ∧ p.priceAriary = priceAriary
  | _ => True

/-- The row after the edits, one after another. -/
def edited (order : List PlanEdit) (p : Plan) : Plan := order.foldl (fun p r => r.apply p) p

theorem edited_append (order : List PlanEdit) (r : PlanEdit) (p : Plan) :
    edited (order ++ [r]) p = r.apply (edited order p) :=
  List.foldl_append

/-- A `PATCH` keeps the name, duration and price, and a `PUT` has set them. -/
theorem edited_isIn {order : List PlanEdit} (h : ∃ r ∈ order, ∃ p, r.IsIn p) (p : Plan) :
    ∃ r ∈ order, r.IsIn (edited order p) := by
  induction order using List.reverseRecOn with
  | nil =>
    obtain ⟨r, hr, -⟩ := h
    cases hr
  | append_singleton order r ih =>
    rw [edited_append]
    cases r with
    | update => exact ⟨_, List.mem_append_right _ (.head _), rfl, rfl, rfl⟩
    | toggle active =>
      obtain ⟨r, hr, q, hq⟩ := h
      have hr : r ∈ order := by
        rcases List.mem_append.1 hr with hr | hr
        · exact hr
        · rw [List.mem_singleton.1 hr] at hq
          cases hq
      obtain ⟨r', hr', hin⟩ := ih ⟨r, hr, q, hq⟩
      refine ⟨r', List.mem_append_left _ hr', ?_⟩
      cases r' with
      | toggle => cases hin
      | update => exact hin

/-- The requests that have edited the row, in the order of their edits. -/
structure Ordered (adminUser : String) (id : Int) (w : World) (s : EditRun) : Prop where
  staged : ∀ t ∈ s.threads, EditStage adminUser id t
  order : ∃ order : List PlanEdit, order.Perm ((s.threads.filter wrote).map (·.tag)) ∧
    s.plan id = (w.db.tables.planById id).map (edited order)

theorem EditStage.valid {t : EditThread} (h : EditStage adminUser id t) (hw : wrote t = true) : t.tag.Valid := by
  cases h with
  | read hp | toggle hp => trivial
  | update hv hp | audit hv hp => exact hv
  | done hv => exact hv
  | failed => cases hw

/-- What the statement of a request does to the row, when a `PATCH` writes what it has read. -/
theorem plan_write {i : Nat} {r : PlanEdit} {name : String} {durationMinutes priceAriary : Int} {active : Bool}
    (hp : s.pending i = some (r, .sql (.updatePlan id name durationMinutes priceAriary active)))
    (hok : TogglesFresh id s (.advance i none))
    (hreq : r = .toggle active ∨ r = .update name durationMinutes priceAriary active) :
    (World.exec none (.sql (.updatePlan id name durationMinutes priceAriary active)) s.shared).2.db.tables.planById id =
      (s.plan id).map r.apply := by
  rw [planById_exec]
  show (s.plan id).map _ = _
  rcases hreq with rfl | rfl
  · cases hplan : s.plan id with
    | none => rfl
    | some p =>
      obtain ⟨rfl, rfl, rfl⟩ := hok _ _ _ _ hp p hplan
      rfl
  · rfl

namespace Ordered

/-- A request goes on. -/
theorem advance {i : Nat} {fault : Option Err} {r : PlanEdit} {op : Op} {next : op.Out → EditProg}
    (h : Ordered adminUser id w s) (hi : s.threads[i]? = some ⟨r, .call op next⟩) (hp : s.pending i = some (r, op))
    (hok : TogglesFresh id s (.advance i fault)) :
    Ordered adminUser id w
      ⟨(World.exec fault op s.shared).2, s.threads.set i ⟨r, next (World.exec fault op s.shared).1⟩⟩ := by
  obtain ⟨stage, hstep⟩ := (h.staged _ (List.mem_of_getElem? hi)).advance fault s.shared
  obtain ⟨order, hperm, hplan⟩ := h.order
  constructor
  case staged =>
    intro t ht
    rcases List.mem_or_eq_of_mem_set ht with ht | rfl
    · exact h.staged t ht
    · exact stage
  obtain ⟨hold, hnew⟩ := Pool.perm_set (b := ⟨r, next (World.exec fault op s.shared).1⟩) hi
  have hold := (hold.filter wrote).map (·.tag)
  have hnew := (hnew.filter wrote).map (·.tag)
  rw [List.filter_cons] at hold hnew
  cases hstep with
  | idle hwrote hsame =>
    refine ⟨order, ?_, hsame.trans hplan⟩
    rw [hwrote] at hnew
    refine hperm.trans (hold.trans (List.Perm.trans (.of_eq ?_) hnew.symm))
    split <;> rfl
  | write hbefore hafter hfault hop hreq =>
    subst hfault hop
    refine ⟨order ++ [r], ?_, ?_⟩
    · rw [hbefore] at hold
      rw [hafter] at hnew
      exact (List.perm_append_singleton r order).trans (((hperm.trans hold).cons r).trans hnew.symm)
    · refine (plan_write hp hok hreq).trans ?_
      rw [hplan, Option.map_map]
      congr 1
      funext p
      exact (edited_append order r p).symm

theorem step {l : EditLabel} (h : Ordered adminUser id w s) (hok : TogglesFresh id s l)
    (hs : s.step adminUser id l = some s') : Ordered adminUser id w s' := by
  cases l with
  | request r =>
    cases hs
    obtain ⟨order, hperm, hplan⟩ := h.order
    obtain ⟨stage, hwrote⟩ := r.stage_program adminUser id
    refine ⟨fun t ht => ?_, order, ?_, hplan⟩
    · rcases List.mem_append.1 ht with ht | ht
      · exact h.staged t ht
      · rw [List.mem_singleton.1 ht]
        exact stage
    · show order.Perm (((s.threads ++ [(⟨r, r.program adminUser id⟩ : EditThread)]).filter wrote).map _)
      rw [List.filter_append, List.filter_cons_of_neg (by rw [hwrote]; exact Bool.false_ne_true), List.filter_nil,
        List.append_nil]
      exact hperm
  | elapse nanos =>
    cases hs
    exact ⟨h.staged, h.order⟩
  | advance i fault =>
    obtain ⟨tag, op, next, hi, hp, rfl⟩ := Pool.advance_call hs
    exact h.advance hi hp hok

theorem serializable (h : Ordered adminUser id w s) : Serializable adminUser id w s := by
  obtain ⟨order, hperm, hplan⟩ := h.order
  have all (hdone : s.AllDone) : order.Perm (s.threads.map (·.tag)) := by
    rwa [List.filter_eq_self.2] at hperm
    intro t ht
    obtain ⟨a, ha⟩ := hdone t ht
    unfold wrote
    rw [ha]
  constructor
  case serial =>
    intro hdone
    refine ⟨order, all hdone, hplan.trans (planById_serially (fun r hr => ?_) w).symm⟩
    obtain ⟨t, ht, rfl⟩ := List.mem_map.1 (hperm.mem_iff.1 hr)
    obtain ⟨ht, hw⟩ := List.mem_filter.1 ht
    exact (h.staged t ht).valid hw
  case kept =>
    rintro hdone ⟨t, ht, q, hq⟩ p hp
    rw [hplan] at hp
    obtain ⟨p₀, -, rfl⟩ := Option.map_eq_some_iff.1 hp
    have hr : t.tag ∈ order := (all hdone).mem_iff.2 (List.mem_map_of_mem ht)
    obtain ⟨r, hr, hin⟩ := edited_isIn ⟨_, hr, q, hq⟩ p₀
    obtain ⟨t', ht', rfl⟩ := List.mem_map.1 ((all hdone).mem_iff.1 hr)
    exact ⟨t', ht', hin⟩

end Ordered

/-- In every run in which each `PATCH` writes back what the plan still has, the requests are serializable. -/
theorem serializable_of_togglesFresh (h : Reach (planEdits adminUser id w) (TogglesFresh id) s) :
    Serializable adminUser id w s := by
  have ordered : Ordered adminUser id w s := by
    apply h.invariant (I := Ordered adminUser id w)
    · rintro s rfl
      exact ⟨nofun, [], .nil, Option.map_id'.symm⟩
    · exact fun _ _ _ hi hok hs => hi.step hok hs
  exact ordered.serializable

def freshShop : World := ⟨0, shop, fun _ => none⟩

/-- The plan is switched off, and a `PUT` comes in after that. -/
theorem serializable_offThenEdit : ∃ s, Serializable "admin" 1 freshShop s ∧ s.AllDone ∧ s.threads.length = 2 := by
  have hok : TogglesFresh 1 (⟨freshShop, []⟩ : EditRun) (.request (.toggle false)) := trivial
  have called := Reach.step (M := planEdits "admin" 1 freshShop) (.start rfl) hok rfl
  have read := called.step (l := .advance 0 none) (by rintro _ _ _ _ ⟨⟩) rfl
  have switched := read.step (l := .advance 0 none) (by rintro _ _ _ _ ⟨⟩ _ ⟨⟩; exact ⟨rfl, rfl, rfl⟩) rfl
  have requested := switched.step (l := .request (.update "2 h" 120 1000 true)) (by trivial) rfl
  have edited := requested.step (l := .advance 1 none) (by rintro _ _ _ _ ⟨⟩) rfl
  have noted := edited.step (l := .advance 1 none) (by rintro _ _ _ _ ⟨⟩) rfl
  refine ⟨_, serializable_of_togglesFresh noted, ?_, rfl⟩
  rintro t (_ | ⟨_, _ | ⟨_, ⟨⟩⟩⟩) <;> exact ⟨_, rfl⟩

/-- A `PUT` between reading and writing of a `PATCH`. -/
def editBetween : List EditLabel :=
  [.request (.toggle false), .request (.update "2 h" 120 1000 true), .advance 0 none, .advance 1 none, .advance 1 none,
    .advance 0 none]

theorem editBetween_lost :
    ¬ ∀ s, Reach (planEdits "admin" 1 freshShop) Free s → Serializable "admin" 1 freshShop s := by
  refine Machine.refute editBetween (M := planEdits "admin" 1 freshShop) (s := ⟨freshShop, []⟩) rfl rfl fun hb => ?_
  have done : EditRun.AllDone (((planEdits "admin" 1 freshShop).trace ⟨freshShop, []⟩ editBetween).get rfl) := by
    rintro t (_ | ⟨_, _ | ⟨_, ⟨⟩⟩⟩) <;> exact ⟨_, rfl⟩
  obtain ⟨t, ht, hin⟩ := hb.kept done ⟨_, .tail _ (.head _), ⟨1, "2 h", 120, 1000, true, ""⟩, rfl, rfl, rfl⟩ _ rfl
  rcases ht with _ | ⟨_, _ | ⟨_, ⟨⟩⟩⟩
  · exact hin
  · exact absurd hin.1 (by decide)

end Didicafe
