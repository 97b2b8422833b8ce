/-
Everything that admins and clients request and the daemon does by itself, from a new database on, with the operations
of the programs in any order and any of them failing. Only three handlers write plans. Two of them check what they
write, and the third one writes back what it has read; so every plan has a duration and a price that pass the checks.
-/
import Didicafe.Daemon.Footprints
import Didicafe.Daemon.Sales

namespace Didicafe

open Effect Runs

/-! ## Plans that pass the checks -/

/-- What `validate_plan_input` says of a plan besides its name. -/
structure PlanInput (durationMinutes priceAriary : Int) : Prop where
  positive : 0 < durationMinutes
  day : durationMinutes ≤ 1440
  price : 0 ≤ priceAriary

theorem planInput_of_validate {name : String} {duration price : Int}
    (h : validatePlanInput name duration price = .ok ()) :
    PlanInput duration price := by
  unfold validatePlanInput at h
  split at h
  · cases h
  split at h
  · cases h
  split at h
  · cases h
  split at h
  · cases h
  split at h
  · cases h
  exact ⟨by omega, by omega, by omega⟩

def PlansSound (t : Tables) : Prop := ∀ p ∈ t.plan, PlanInput p.durationMinutes p.priceAriary

/-- Plans are written with checked input only. -/
def Op.WritesSound : Op → Prop
  | .sql (.createPlan _ durationMinutes priceAriary) | .sql (.updatePlan _ _ durationMinutes priceAriary _) =>
    PlanInput durationMinutes priceAriary
  | _ => True

theorem Op.writesSound_of_part {op : Op} (h : op.part ≠ some .plan) : op.WritesSound := by
  rcases op with _ | cmd | q
  · trivial
  · trivial
  · cases q with
    | createPlan | updatePlan => exact absurd rfl h
    | _ => trivial

theorem PlansSound.run {t : Tables} (h : PlansSound t) (now : Int) {q : Sql} (hq : (Op.sql q).WritesSound) :
    PlansSound (q.run now t).2 := by
  cases q with
  | createPlan name durationMinutes priceAriary =>
    intro p hp
    rcases List.mem_append.1 hp with hp | hp
    · exact h p hp
    · rw [List.mem_singleton.1 hp]
      exact hq
  | updatePlan => exact Table.forall_updateWhere h fun _ _ _ => hq
  | createToken =>
    simp only [Sql.run, Tables.createToken]
    split
    · exact h
    · split <;> exact h
  | createSession =>
    simp only [Sql.run, Tables.createSession]
    split <;> exact h
  | _ => exact h

/-- The others may do anything that keeps the plans sound. -/
def sound : Rules Op Op.Out World (Option Err) where
  rely w w' := PlansSound w.db.tables → PlansSound w'.db.tables
  allowed _ op := op.WritesSound
  handler := World.exec
  refl _ h := h
  trans h h' hp := h' (h hp)
  keeps fault op w hok h := by
    cases fault with
    | some e => rw [World.exec_some]; exact h
    | none =>
      cases op with
      | utcNow | nft => exact h
      | sql q => exact h.run w.now hok

section Heeds

open Rules

variable {α : Type} {w : World}

/-- A program without the plans in its footprint. -/
theorem sound_of_within (parts : List Part) {x : Prog Op Op.Out α} (h : x.Uses fun op => op.within parts = true)
    (hp : .plan ∉ parts) : sound.Heeds x w :=
  h.heeds fun _ _ hop => Op.writesSound_of_part (Op.part_ne_of_within hop hp)

theorem sound_write {q : Sql} (h : (Op.sql q).WritesSound) : sound.Heeds (Api.internal (sql q)).run w :=
  Heeds.bind (heeds_perform fun _ _ => h) fun _ _ _ => trivial

theorem sound_apiCreatePlan (adminUser name : String) (durationMinutes priceAriary : Int) :
    sound.Heeds (apiCreatePlan adminUser name durationMinutes priceAriary).run w := by
  unfold apiCreatePlan
  cases hv : validatePlanInput name durationMinutes priceAriary with
  | error e => trivial
  | ok =>
    refine Heeds.bind_run (x := Api.ofExcept (.ok ())) trivial fun _ w₁ _ => ?_
    refine Heeds.bind_run (sound_write (planInput_of_validate hv)) fun id w₂ _ => ?_
    exact sound_of_within [.auditLog] (Within.bind (.ignore (.op rfl)) fun _ => trivial) (by decide)

theorem sound_apiUpdatePlan (adminUser : String) (id : Int) (name : String) (durationMinutes priceAriary : Int)
    (active : Bool) :
    sound.Heeds (apiUpdatePlan adminUser id name durationMinutes priceAriary active).run w := by
  unfold apiUpdatePlan
  cases hv : validatePlanInput name durationMinutes priceAriary with
  | error e => trivial
  | ok =>
    refine Heeds.bind_run (x := Api.ofExcept (.ok ())) trivial fun _ w₁ _ => ?_
    refine Heeds.bind_run (sound_write (planInput_of_validate hv)) fun updated w₂ _ => ?_
    split
    · trivial
    · exact sound_of_within [.auditLog] (Within.bind (.ignore (.op rfl)) fun _ => trivial) (by decide)

/-- The handler checks nothing, but the values are those of a row. -/
theorem sound_apiTogglePlanActive (h : PlansSound w.db.tables) (id : Int) (active : Bool) :
    sound.Heeds (apiTogglePlanActive id active).run w := by
  refine fun w₁ h₁ => ⟨trivial, fun fault => ?_⟩
  cases fault with
  | some e => trivial
  | none =>
    show sound.Heeds (Prog.bind (Prog.done (Except.ok (w₁.db.tables.planById id))) _) w₁
    cases hp : w₁.db.tables.planById id with
    | none => trivial
    | some plan =>
      have hplan : PlanInput plan.durationMinutes plan.priceAriary := h₁ h plan (List.mem_of_find?_eq_some hp)
      refine Heeds.bind_run (sound_write hplan) fun updated w₂ _ => ?_
      split <;> trivial

theorem sound_manageCreatePlan (adminUser planName : String) (duration price : Option Int) :
    sound.Heeds (manageCreatePlan adminUser planName duration price).run w := by
  unfold manageCreatePlan
  split
  · refine Heeds.bind_run (x := Api.ofExcept _) trivial fun duration w₁ _ => ?_
    refine Heeds.bind_run (x := Api.ofExcept _) trivial fun price w₂ _ => ?_
    cases hv : validatePlanInput planName duration price with
    | error e => trivial
    | ok =>
      refine Heeds.bind_run (x := Api.ofExcept (.ok ())) trivial fun _ w₃ _ => ?_
      refine Heeds.bind_run (sound_write (planInput_of_validate hv)) fun id w₄ _ => ?_
      exact sound_of_within [.auditLog] (Within.bind (.ignore (.op rfl)) fun _ => trivial) (by decide)
  · trivial

theorem sound_manageSubmit (c : TokenConfig) (adminUser csrf : String) (form : ManageForm) (draws : Nat → Draws c) :
    sound.Heeds (manageSubmit c adminUser csrf form draws).run w := by
  have page (message : Option I18nMessage) (w₁ : World) : sound.Heeds (ExceptT.run (do
      let data ← loadManageData "current" 1
      return (data, message) : Api (ManageData × Option I18nMessage))) w₁ :=
    sound_of_within [] (Within.bind (.loadManageData "current" 1) fun _ => trivial) (by decide)
  unfold manageSubmit
  split
  · trivial
  cases form.planName with
  | none =>
    cases form.planId with
    | none => exact Heeds.bind_run (x := pure none) trivial fun message w₁ _ => page message w₁
    | some planId =>
      have generate := Within.manageGenerateTokens c adminUser planId form.count form.name draws
      exact Heeds.bind_run (sound_of_within _ generate (by decide)) fun message w₁ _ => page message w₁
  | some planName =>
    exact Heeds.bind_run (sound_manageCreatePlan adminUser planName form.duration form.price) fun message w₁ _ =>
      page message w₁

end Heeds

/-! ## Runs -/

/-- What is started in the daemon. -/
inductive HouseCall (c : CafeConfig) where
  | admin (r : AdminRequest c.token)
  | portalAuth (code mac ip : String)
  | cleanup
  | purge (retentionDays : Int)
  | restore

def HouseCall.program {c : CafeConfig} : HouseCall c → Prog Op Op.Out Unit
  | .admin r => (r.program c.adminUsername).run.void
  | .portalAuth code mac ip => (Didicafe.portalAuth code mac ip).void
  | .cleanup => (cleanupPass c.gracePeriodSeconds).void
  | .purge retentionDays => (purgeExpiredSessions retentionDays).run.void
  | .restore => (restoreSessions c.gracePeriodSeconds).run.void

/-- What a request or a job may write. Without a session an action writes nothing. -/
def HouseCall.footprint {c : CafeConfig} : HouseCall c → List Part
  | .admin (.login ..) => [.authSet, .auditLog]
  | .admin (.action none _) => []
  | .admin (.action (some _) a) => a.footprint
  | .portalAuth .. | .cleanup | .restore => [.authSet, .token, .session]
  -- the ticker's purge ends with `purge_audit_log`, which is not among the statements
  | .purge _ => [.token, .session, .auditLog]

theorem Within.program {c : CafeConfig} (k : HouseCall c) :
    k.program.Uses fun op => op.within k.footprint = true := by
  have void {α : Type} {p : Prog Op Op.Out α} {parts : List Part} (hp : p.Uses fun op => op.within parts = true) :
      p.void.Uses fun op => op.within parts = true :=
    hp.bind (f := fun _ => pure ()) fun _ => trivial
  cases k with
  | portalAuth code mac ip => exact void (Within.portalAuth code mac ip)
  | cleanup => exact void (Within.cleanupPass _)
  | restore => exact void (Within.restoreSessions _)
  | purge retentionDays =>
    exact void ((Within.purgeExpiredSessions retentionDays).mono (by simp [HouseCall.footprint]))
  | admin r =>
    cases r with
    | login username accepted client => exact void (Within.recordLogin username accepted client).void
    | action session a =>
      cases session with
      | none => trivial
      | some csrf => exact void (Within.handler c.adminUsername csrf a)

/-- The programs under way and those that have ended, over the world. -/
abbrev House (c : CafeConfig) := Pool (HouseCall c) Op Op.Out Unit World

/-- A program is started, one of them performs its next operation, or time passes. -/
inductive HouseLabel (c : CafeConfig) where
  | start (k : HouseCall c)
  | advance (i : Nat) (fault : Option Err)
  | elapse (nanos : Nat)

def House.step {c : CafeConfig} (s : House c) : HouseLabel c → Option (House c)
  | .start k => some (s.spawn ⟨k, k.program⟩)
  | .advance i fault => s.advance (World.exec fault) i
  | .elapse nanos => some { s with shared := { s.shared with now := s.shared.now + nanos } }

/-- A database without plans, and nothing started yet. -/
def house (c : CafeConfig) : Machine (House c) (HouseLabel c) where
  init s := s.shared.db.tables.plan = [] ∧ s.threads = []
  step := House.step

theorem AdminAction.sound {c : TokenConfig} {w : World} (h : PlansSound w.db.tables) (adminUser csrf : String)
    (a : AdminAction c) : sound.Heeds (a.handler adminUser csrf).run w := by
  have answer {α : Type} {x : Api α} (hx : Didicafe.sound.Heeds x.run w) : Didicafe.sound.Heeds (Api.void x).run w :=
    Rules.Heeds.bind_run hx fun _ _ _ => trivial
  by_cases hp : .plan ∈ a.footprint
  · cases a with
    | createPlan => exact answer (sound_apiCreatePlan ..)
    | updatePlan => exact answer (sound_apiUpdatePlan ..)
    | togglePlanActive id active => exact answer (sound_apiTogglePlanActive h id active)
    | manageSubmit => exact answer (sound_manageSubmit ..)
    | _ => simp [footprint] at hp
  · exact sound_of_within _ (Within.handler adminUser csrf a) hp

theorem HouseCall.sound {c : CafeConfig} {w : World} (h : PlansSound w.db.tables) (k : HouseCall c) :
    sound.Heeds k.program w := by
  by_cases hp : .plan ∈ k.footprint
  · -- only the actions of an admin have the plans in their footprint
    cases k with
    | admin r =>
      cases r with
      | login => simp [footprint] at hp
      | action session a =>
        cases session with
        | none => trivial
        | some csrf => exact (a.sound h c.adminUsername csrf).void
    | _ => simp [footprint] at hp
  · exact sound_of_within _ (Within.program k) hp

/-- The plans stay sound, and every program under way keeps them so. -/
structure HouseSound {c : CafeConfig} (s : House c) : Prop where
  plans : PlansSound s.shared.db.tables
  threads : ∀ t ∈ s.threads, sound.Heeds t.rest s.shared

theorem HouseSound.step {c : CafeConfig} {s s' : House c} {l : HouseLabel c} (h : HouseSound s)
    (hs : (house c).step s l = some s') : HouseSound s' := by
  cases l with
  | start k =>
    cases hs
    refine ⟨h.plans, fun t ht => ?_⟩
    rcases List.mem_append.1 ht with ht | ht
    · exact h.threads t ht
    · rw [List.mem_singleton.1 ht]
      exact k.sound h.plans
  | advance i fault =>
    obtain ⟨hrely, hthreads⟩ := sound.heeds_advance h.threads hs
    exact ⟨hrely h.plans, hthreads⟩
  | elapse nanos =>
    cases hs
    exact ⟨h.plans, fun t ht => (h.threads t ht).later fun hp => hp⟩

theorem houseSound_of_reach {c : CafeConfig} {ok : House c → HouseLabel c → Prop} {s : House c}
    (h : Reach (house c) ok s) : HouseSound s := by
  apply h.invariant
  · rintro s ⟨hplan, hthreads⟩
    refine ⟨fun p hp => ?_, fun t ht => ?_⟩
    · rw [hplan] at hp
      cases hp
    · rw [hthreads] at ht
      cases ht
  · exact fun s l s' hi _ hs => hi.step hs

/-! ## A first day -/

/-- A new database. -/
def newDatabase : Database where
  tables := { plan := [], token := [], session := [], auditLog := [], setting := [], planSeq := 1, tokenSeq := 1,
              sessionSeq := 1, auditLogSeq := 1 }
  schema := ⟨by decide, by decide, by decide, by decide, by decide, by decide, by decide, by decide, by decide,
    by decide⟩

def newHouse : House .small := ⟨⟨World.opening.now, newDatabase, TimedSet.empty⟩, []⟩

/-- An action of an admin who is logged in. -/
def adminDoes (a : AdminAction CafeConfig.small.token) : HouseLabel .small := .start (.admin (.action (some "token") a))

/-- Draws that make the codes of a batch `AAAA-AAAA`, `BBBB-BBBB` and so on. -/
def inTurn (k : Nat) : Draws CafeConfig.small.token := fun _ => ⟨k % 32, Nat.mod_lt k (by decide)⟩

/-- Thread `i` performs as many operations, and none of them fails. -/
def performs (i count : Nat) : List (HouseLabel .small) := List.replicate count (.advance i none)

end Didicafe
