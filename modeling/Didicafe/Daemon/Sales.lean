/-
Runs of everything that writes plans, tokens and sessions, each call run to its end while some of its operations may
fail. The weekly statistics report of a day that is over what they reported of it before, unless a plan with tokens
sold on it gets another price or the purge deletes such a token: both figures are computed from the rows as they are.
-/
import Didicafe.Daemon.Jobs
import Didicafe.Lib.Runs
import Didicafe.Model.Plans
import Didicafe.Portal.Points
import Didicafe.Session.Calls
import Didicafe.Store.Ledger

namespace Didicafe

open Effect Runs

/-! ## Plans -/

/-- The plan has the price. -/
def HasPrice (t : Tables) (id price : Int) : Prop := ∃ p ∈ t.plan, p.id = id ∧ p.priceAriary = price

theorem HasPrice.unique {t : Tables} {id price : Int} (hs : t.Schema) (h : HasPrice t id price) {p : Plan}
    (hp : p ∈ t.plan) (hid : p.id = id) : p.priceAriary = price := by
  obtain ⟨q, hq, hqid, hprice⟩ := h
  rw [Table.eq_of_key hs.planId hp hq (hid.trans hqid.symm), hprice]

/-- An operation that redeems no token, deletes none, and edits no price. -/
def Op.KeepsPrices (t : Tables) : Op → Prop
  | .sql (.updatePlan id _ _ price _) => HasPrice t id price
  | .sql (.redeemToken ..) | .sql .deleteOrphanTokens => False
  | _ => True

theorem HasPrice.run {t : Tables} {id price : Int} (hs : t.Schema) (h : HasPrice t id price) (now : Int) {q : Sql}
    (hq : (Op.sql q).KeepsPrices t) : HasPrice (q.run now t).2 id price := by
  obtain ⟨p, hp, hid, hprice⟩ := h
  have same {t' : Tables} (ht : t'.plan = t.plan) : HasPrice t' id price := ⟨p, ht ▸ hp, hid, hprice⟩
  cases q with
  | createPlan => exact ⟨p, List.mem_append_left _ hp, hid, hprice⟩
  | updatePlan id' name durationMinutes price' active =>
    by_cases he : p.id = id'
    · refine ⟨_, Table.mem_updateWhere.2 (.inl ⟨p, hp, beq_iff_eq.2 he, rfl⟩), hid, ?_⟩
      exact (HasPrice.unique hs hq hp he).symm.trans hprice
    · exact ⟨p, Table.mem_updateWhere.2 (.inr ⟨hp, beq_false_of_ne he⟩), hid, hprice⟩
  | createToken =>
    refine same ?_
    simp only [Sql.run, Tables.createToken]
    split
    · rfl
    · split <;> rfl
  | createSession =>
    refine same ?_
    simp only [Sql.run, Tables.createSession]
    split <;> rfl
  | redeemToken | deleteOrphanTokens => exact hq.elim
  | _ => exact same rfl

/-- The others may do anything that keeps the prices. -/
def pricing : Rules Op Op.Out World (Option Err) where
  rely w w' := ∀ id price, HasPrice w.db.tables id price → HasPrice w'.db.tables id price
  allowed w op := op.KeepsPrices w.db.tables
  handler := World.exec
  refl _ _ _ h := h
  trans h h' id price hp := h' id price (h id price hp)
  keeps fault op w hok id price h := by
    cases fault with
    | some e => rw [World.exec_some]; exact h
    | none =>
      cases op with
      | utcNow | nft => exact h
      | sql q => exact h.run w.db.schema w.now hok

section Heeds

open Rules

variable {α : Type} {w : World}

theorem heeds_pricing {x : Prog Op Op.Out α} (h : x.Uses fun op => ∀ t, op.KeepsPrices t) : pricing.Heeds x w :=
  h.heeds fun _ _ hop => hop _

theorem heeds_apiCreatePlan (adminUser name : String) (durationMinutes priceAriary : Int) :
    pricing.Heeds (apiCreatePlan adminUser name durationMinutes priceAriary).run w := by
  apply heeds_pricing
  refine Fallible.Uses.bind (x := Api.ofExcept _) trivial fun _ => ?_
  refine Fallible.Uses.bind (uses_internal (uses_sql (q := .createPlan ..) fun _ => trivial)) fun id => ?_
  exact Fallible.Uses.bind (uses_ignore (uses_sql (q := .auditLog ..) fun _ => trivial)) fun _ => trivial

/-- The handler writes back the price it has read. -/
theorem heeds_apiTogglePlanActive (id : Int) (active : Bool) :
    pricing.Heeds (apiTogglePlanActive id active).run w := by
  refine fun w₁ _ => ⟨trivial, fun fault => ?_⟩
  cases fault with
  | some e => trivial
  | none =>
    show pricing.Heeds (Prog.bind (Prog.done (Except.ok (w₁.db.tables.planById id))) _) w₁
    cases hp : w₁.db.tables.planById id with
    | none => trivial
    | some plan =>
      have hprice : HasPrice w₁.db.tables id plan.priceAriary :=
        ⟨plan, List.mem_of_find?_eq_some hp, by simpa using List.find?_some hp, rfl⟩
      have hwrite : pricing.Heeds (Api.internal
          (sql (.updatePlan id plan.name plan.durationMinutes plan.priceAriary active))).run w₁ :=
        Heeds.bind (heeds_perform fun w₂ h₂ => h₂ _ _ hprice) fun _ _ _ => trivial
      refine Heeds.bind_run hwrite fun updated w₂ _ => ?_
      split <;> trivial

theorem heeds_apiGenerateTokens (c : TokenConfig) (name : String) (planId : Int) (count : Nat)
    (draws : Nat → Draws c) : pricing.Heeds (apiGenerateTokens c name planId count draws).run w :=
  heeds_pricing (uses_apiGenerateTokens (fun _ => trivial) (fun _ _ => trivial) c count draws)

end Heeds

/-! ## Calls -/

/-- What the calls take from the configuration. -/
structure CafeConfig where
  adminUsername : String
  token : TokenConfig
  gracePeriodSeconds : Int

/-- What admins, clients and the cleanup ticker call. -/
inductive CafeCall (c : CafeConfig) where
  | createPlan (name : String) (durationMinutes priceAriary : Int)
  | updatePlan (id : Int) (name : String) (durationMinutes priceAriary : Int) (active : Bool)
  | togglePlanActive (id : Int) (active : Bool)
  | generateTokens (name : String) (planId : Int) (count : Nat) (draws : Nat → Draws c.token)
  | portalAuth (code mac ip : String)
  | disconnect (sessionId : Int)
  | cleanup
  | revokeToken (id : Int)
  | purge (retentionDays : Int)

namespace CafeCall

variable {c : CafeConfig}

def program : CafeCall c → Prog Op Op.Out Unit
  | .createPlan name durationMinutes priceAriary =>
    (apiCreatePlan c.adminUsername name durationMinutes priceAriary).run.void
  | .updatePlan id name durationMinutes priceAriary active =>
    (apiUpdatePlan c.adminUsername id name durationMinutes priceAriary active).run.void
  | .togglePlanActive id active => (apiTogglePlanActive id active).run.void
  | .generateTokens name planId count draws => (apiGenerateTokens c.token name planId count draws).run.void
  | .portalAuth code mac ip => (Didicafe.portalAuth code mac ip).void
  | .disconnect sessionId => (Didicafe.disconnect sessionId).run.void
  | .cleanup => (cleanupPass c.gracePeriodSeconds).void
  | .revokeToken id => (apiRevokeToken c.adminUsername id).void
  | .purge retentionDays => (purgeExpiredSessions retentionDays).run.void

/-- Plans are created and edited with validated input, clients have a valid MAC, and the retention is positive. -/
def valid : CafeCall c → Bool
  | .createPlan name durationMinutes priceAriary | .updatePlan _ name durationMinutes priceAriary _ =>
    (validatePlanInput name durationMinutes priceAriary).isOk
  | .portalAuth _ mac _ => isValidMac mac
  | .purge retentionDays => 0 < retentionDays
  | _ => true

end CafeCall

/-- A call some of whose operations fail, or time passes. -/
inductive CafeEvent (c : CafeConfig) where
  | call (k : CafeCall c) (env : Op → Option Err)
  | elapse (nanos : Nat)

def CafeEvent.step {c : CafeConfig} (w : World) : CafeEvent c → Option World
  | .call k env => if k.valid then some (k.program.run (failing env) w).2 else none
  | .elapse nanos => some { w with now := w.now + nanos }

/-- Calls on tables in which no token is redeemed that is unused or revoked. -/
def cafe (c : CafeConfig) : Machine World (CafeEvent c) := ⟨fun w => Unredeemed w.db.tables, CafeEvent.step⟩

/-- An edit of a plan changes the price of no plan with a token counted for a reported day, and a purge deletes no such
token; a call whose statement fails does neither. -/
def LeavesHistory {c : CafeConfig} (w : World) : CafeEvent c → Prop
  | .call (.updatePlan id name durationMinutes priceAriary active) env =>
    env (.sql (.updatePlan id name durationMinutes priceAriary active)) = none →
      ∀ p ∈ w.db.tables.plan, p.id = id → p.priceAriary ≠ priceAriary →
        ∀ r ∈ w.db.tables.token, r.planId = id → ¬ r.CountedPast w.now
  | .call (.purge retentionDays) env =>
    env (.sql (.deleteEndedSessions retentionDays)) = none → env (.sql .deleteOrphanTokens) = none →
      ∀ r ∈ w.db.tables.token, (w.db.tables.deleteEndedSessions w.now retentionDays).isOrphan r = true →
        ¬ r.CountedPast w.now
  | _ => True

/-- An operation that is not made to fail leaves the sales alone. -/
def Spares (env : Op → Option Err) (w : World) (op : Op) : Prop := env op = none → op.LeavesSales w

namespace Op

variable {op : Op} {w : World}

theorem Clerical.leavesSales (h : op.Clerical w.db.tables) : op.LeavesSales w := by
  rcases op with _ | cmd | q
  · trivial
  · trivial
  · cases q with
    | redeemToken | updatePlan | deleteOrphanTokens => exact h.elim
    | _ => trivial

theorem KeepsPrices.leavesSales (h : op.KeepsPrices w.db.tables) : op.LeavesSales w := by
  rcases op with _ | cmd | q
  · trivial
  · trivial
  cases q with
  | updatePlan =>
    intro p hp hid hne
    exact absurd (HasPrice.unique w.db.schema h hp hid) hne
  | redeemToken | deleteOrphanTokens => exact h.elim
  | _ => trivial

end Op

section Allows

variable {α : Type} {env : Op → Option Err} {w : World}

theorem failing_exec (env : Op → Option Err) (op : Op) : ∃ fault, ∀ w, failing env op w = World.exec fault op w :=
  ⟨env op, fun _ => rfl⟩

theorem allows_clerical {p : Prog Op Op.Out α} (h : clerical.Heeds p w) : p.void.Allows (failing env) (Spares env) w :=
  (h.void.allows (failing_exec env)).mono fun _ _ hok _ => Op.Clerical.leavesSales hok

theorem allows_pricing {p : Prog Op Op.Out α} (h : pricing.Heeds p w) : p.void.Allows (failing env) (Spares env) w :=
  (h.void.allows (failing_exec env)).mono fun _ _ hok _ => Op.KeepsPrices.leavesSales hok

/-- A request that runs alone marks only a token that is unused. -/
theorem allows_portalAuth (code mac ip : String) :
    (portalAuth code mac ip).Allows (failing env) (Spares env) w := by
  let req : Request := ⟨code, mac, ip⟩
  -- carried along: the token the request is to mark is unused
  apply Prog.allows_of_steps (J := fun p w => ∃ pt : AuthPoint, p = pt.program req ∧
    ∀ id, pt.redeeming = some id → ∀ r ∈ w.db.tables.token, r.id = id → r.status = .unused)
  · rintro op next w ⟨pt, hp, hun⟩ -
    cases pt with
    | redeem k => cases hp; exact hun k.id rfl
    | lookup =>
      have hp : Prog.call op next = AuthPoint.lookupLeft req := by rw [← AuthPoint.portalAuth_points]; exact hp
      cases hp
      trivial
    | finished => cases hp
    | _ => cases hp; trivial
  · rintro op next w ⟨pt, hp, hun⟩
    have hs : (pt.program req).step (World.exec (env op)) w =
        some (next (failing env op w).1, (failing env op w).2) := by
      rw [← hp]; rfl
    obtain ⟨pt', hpt, hstep⟩ := auth_step hs
    refine ⟨pt', hpt, fun id hid r hr hrid => ?_⟩
    obtain ⟨hmark, hold⟩ := hstep.redeeming hid
    -- a step that does not mark leaves the rows of the tokens as they were
    obtain ⟨opens, hc, -⟩ := hstep.changes
    have hr : r ∈ w.db.tables.token := hc.token r hr (.inl (by rw [hmark]; exact nofun))
    rcases hold with hold | ⟨k, hk, hst, rfl⟩
    · exact hun id hold r hr hrid
    · rw [Table.eq_of_key w.db.schema.tokenId hr (Tables.tokenByCode_some hk).1 hrid, hst]
  · exact ⟨.lookup, rfl, nofun⟩

theorem allows_apiUpdatePlan {adminUser : String} {id : Int} {name : String} {durationMinutes priceAriary : Int}
    {active : Bool} (hv : (validatePlanInput name durationMinutes priceAriary).isOk = true)
    (h : Spares env w (.sql (.updatePlan id name durationMinutes priceAriary active))) :
    (apiUpdatePlan adminUser id name durationMinutes priceAriary active).run.Allows (failing env) (Spares env) w := by
  cases hok : validatePlanInput name durationMinutes priceAriary with
  | error e => rw [hok] at hv; cases hv
  | ok =>
    unfold apiUpdatePlan
    rw [hok]
    refine ⟨h, ?_⟩
    generalize failing env (.sql (.updatePlan id name durationMinutes priceAriary active)) w = x
    obtain ⟨_ | _ | _, w'⟩ := x
    · trivial
    · trivial
    · exact ⟨fun _ => trivial, trivial⟩

theorem allows_purgeExpiredSessions {retentionDays : Int}
    (h : env (.sql (.deleteEndedSessions retentionDays)) = none →
      Spares env { w with db := (w.db.exec w.now (.deleteEndedSessions retentionDays)).2 } (.sql .deleteOrphanTokens)) :
    (purgeExpiredSessions retentionDays).run.Allows (failing env) (Spares env) w := by
  refine ⟨fun _ => trivial, ?_⟩
  cases he : env (.sql (.deleteEndedSessions retentionDays)) with
  | some e =>
    have : failing env (.sql (.deleteEndedSessions retentionDays)) w = (.error e, w) := by
      simp only [failing, World.exec, he]
    rw [this]
    trivial
  | none =>
    have : failing env (.sql (.deleteEndedSessions retentionDays)) w =
        (.ok (w.db.tables.session.countP (Tables.isPurged w.now retentionDays)),
          { w with db := (w.db.exec w.now (.deleteEndedSessions retentionDays)).2 }) := by
      simp only [failing, World.exec, he]; rfl
    rw [this]
    refine ⟨h he, ?_⟩
    generalize failing env (.sql .deleteOrphanTokens) _ = x
    obtain ⟨_ | _, w'⟩ := x <;> trivial

/-- In every call that leaves history alone, each operation leaves the sales alone. -/
theorem CafeCall.allows {c : CafeConfig} {k : CafeCall c} (hv : k.valid = true) (h : LeavesHistory w (.call k env)) :
    k.program.Allows (failing env) (Spares env) w := by
  cases k with
  | createPlan => exact allows_pricing (heeds_apiCreatePlan _ _ _ _)
  | updatePlan => exact (allows_apiUpdatePlan hv h).void
  | togglePlanActive => exact allows_pricing (heeds_apiTogglePlanActive _ _)
  | generateTokens => exact allows_pricing (heeds_apiGenerateTokens _ _ _ _ _)
  | portalAuth => exact (allows_portalAuth ..).void
  | disconnect => exact allows_clerical (heeds_disconnect _)
  | cleanup => exact allows_clerical (heeds_cleanupPass _)
  | revokeToken => exact allows_clerical (heeds_apiRevokeToken _ _)
  | purge => exact (allows_purgeExpiredSessions fun he ho => h he ho).void

end Allows

/-! ## Runs -/

/-- The later state has the receipts of the days that were over and are still reported. -/
structure SalesKept (w w' : World) : Prop where
  now : w.now ≤ w'.now
  receipts : ∀ day, today w'.now - 6 ≤ day → day < today w.now →
    w'.db.tables.receipts (formatDate day) = w.db.tables.receipts (formatDate day)

theorem today_mono {m n : Int} (h : m ≤ n) : today m ≤ today n := by
  unfold today nanosPerSec
  omega

namespace SalesKept

variable {w w' w'' : World}

theorem refl (w : World) : SalesKept w w := ⟨Int.le_refl _, fun _ _ _ => rfl⟩

theorem trans (h : SalesKept w w') (h' : SalesKept w' w'') : SalesKept w w'' := by
  refine ⟨Int.le_trans h.now h'.now, fun day hlo hhi => ?_⟩
  have := today_mono h.now
  have := today_mono h'.now
  -- a day reported at the end and over at the start is reported in between
  exact (h'.receipts day hlo (by omega)).trans (h.receipts day (by omega) hhi)

/-- A run all of whose operations leave the sales alone. -/
theorem run {p : Prog Op Op.Out Unit} {env : Op → Option Err} (hp : p.Allows (failing env) (Spares env) w)
    (hu : Unredeemed w.db.tables) :
    Unredeemed (p.run (failing env) w).2.db.tables ∧ SalesKept w (p.run (failing env) w).2 := by
  have h : Unredeemed (p.run (failing env) w).2.db.tables ∧ (p.run (failing env) w).2.now = w.now ∧
      SameReceipts w.now w.db.tables (p.run (failing env) w).2.db.tables := by
    refine hp.run (I := fun w' => Unredeemed w'.db.tables ∧ w'.now = w.now ∧
      SameReceipts w.now w.db.tables w'.db.tables) ?_ ⟨hu, rfl, fun _ _ => rfl⟩
    rintro w' op ⟨hu, hnow, hsame⟩ hok
    cases he : env op with
    | some e =>
      have : (failing env op w').2 = w' := by simp only [failing, he, World.exec_some]
      rw [this]
      exact ⟨hu, hnow, hsame⟩
    | none =>
      have hx : failing env op w' = World.exec none op w' := by simp only [failing, he]
      rw [hx]
      have hkeep := (hok he).sameReceipts hu
      rw [hnow] at hkeep
      refine ⟨?_, ?_, fun day hday => (hkeep day hday).trans (hsame day hday)⟩
      · cases op with
        | utcNow | nft => exact hu
        | sql q => exact q.unredeemed hu w'.now
      · cases op <;> exact hnow
  obtain ⟨hu', hnow, hsame⟩ := h
  exact ⟨hu', Int.le_of_eq hnow.symm, fun day hlo hhi => hsame day ⟨by rwa [hnow] at hlo, hhi⟩⟩

theorem step {c : CafeConfig} {e : CafeEvent c} (hu : Unredeemed w.db.tables) (hok : LeavesHistory w e)
    (hs : (cafe c).step w e = some w') : Unredeemed w'.db.tables ∧ SalesKept w w' := by
  cases e with
  | call k env =>
    have hs : (if k.valid = true then some (k.program.run (failing env) w).2 else none) = some w' := hs
    split at hs
    · cases hs
      exact run (CafeCall.allows ‹_› hok) hu
    · cases hs
  | elapse nanos =>
    cases hs
    exact ⟨hu, by show w.now ≤ w.now + (nanos : Int); omega, fun _ _ _ => rfl⟩

end SalesKept

/-- Whatever the weekly statistics report of a day that is over, they report of it later as well. -/
def SameSales (w w' : World) : Prop :=
  ∀ l l', (w.db.exec w.now .getWeeklyStats).1 = .ok l → (w'.db.exec w'.now .getWeeklyStats).1 = .ok l' →
    ∀ d ∈ l, ∀ d' ∈ l', d.date = d'.date → d.date ≠ formatDate (today w.now) →
      (d.tokensSold, d.revenueAriary) = (d'.tokensSold, d'.revenueAriary)

theorem SalesKept.sameSales {w w' : World} (h : SalesKept w w') : SameSales w w' := by
  intro l l' hl hl' d hd d' hd' hdate hpast
  obtain ⟨day, -, hhi, hday, hstats⟩ := Tables.mem_weeklyStats hl hd
  obtain ⟨day', hlo', -, hday', hstats'⟩ := Tables.mem_weeklyStats hl' hd'
  obtain rfl : day = day' := formatDate_injective (hday.symm.trans (hdate.trans hday'))
  have hne : day ≠ today w.now := by
    rintro rfl
    exact hpast hday
  rw [Tables.dayStats_receipts hstats, Tables.dayStats_receipts hstats', h.receipts day hlo' (by omega)]

/-- In every run that edits no price of a plan with a token counted for a reported day and purges no such token, the
sales of a day that is over stay the same as long as they are reported. -/
theorem sameSales_of_leavesHistory {c : CafeConfig} {w w' : World} (h : Reach (cafe c) LeavesHistory w)
    (hp : Path (cafe c) LeavesHistory w w') : SameSales w w' := by
  have unredeemed {w : World} (h : Reach (cafe c) LeavesHistory w) : Unredeemed w.db.tables :=
    h.invariant (I := fun w => Unredeemed w.db.tables) (fun _ h0 => h0)
      fun _ _ _ hi hok hs => (SalesKept.step hi hok hs).1
  exact (h.path (R := SalesKept) .refl (fun _ _ _ => .trans)
    (fun _ _ _ h hok hs => (SalesKept.step (unredeemed h) hok hs).2) hp).2.sameSales

/-! ## The day after a sale -/

def CafeConfig.small : CafeConfig := ⟨"admin", ⟨"CAFE", "ABCDEFGHJKLMNPQRSTUVWXYZ23456789", 8⟩, 0⟩

/-- The first customer. -/
def firstSale : CafeEvent .small := .call (.portalAuth "AAAA" "02:00:00:00:00:01" "10.0.0.2") fun _ => none

/-- An edit of the plan. -/
def edit (name : String) (priceAriary : Int) : CafeEvent .small :=
  .call (.updatePlan 1 name 60 priceAriary true) fun _ => none

theorem unredeemed_opening : Unredeemed World.opening.db.tables := by
  unfold Unredeemed
  decide

/-- The next day the plan gets another name. -/
theorem sameSales_renamed : ∃ w w', (cafe .small).trace .opening [firstSale, .elapse 86400000000000] = some w ∧
    (cafe .small).step w (edit "an hour" 500) = some w' ∧ SameSales w w' := by
  have hauth : LeavesHistory .opening firstSale := trivial
  have sold := Reach.step (M := cafe .small) (.start unredeemed_opening) hauth rfl
  have hnight (w : World) : LeavesHistory w (.elapse 86400000000000 : CafeEvent .small) := trivial
  have later := sold.step (hnight _) rfl
  have hedit (w : World) (hw : w.db.tables.plan = shopTables.plan) : LeavesHistory w (edit "an hour" 500) := by
    rintro - p hp - hprice
    rw [hw] at hp
    rw [List.mem_singleton.1 hp] at hprice
    exact absurd rfl hprice
  exact ⟨_, _, rfl, rfl, sameSales_of_leavesHistory later (.step .refl (hedit _ rfl) rfl)⟩

/-- The statistics of two days, the sale of the first at the given price. -/
def weekWith (priceAriary : Int) : List DayStats :=
  ["2023-12-27", "2023-12-28", "2023-12-29", "2023-12-30", "2023-12-31"].map (⟨·, 0, 0⟩) ++
    [⟨"2024-01-01", 1, priceAriary⟩, ⟨"2024-01-02", 0, 0⟩]

/-- The next day the plan gets another price, and so does the sale. -/
theorem repriced_not_sameSales :
    ¬ ∀ (c : CafeConfig) w w', Reach (cafe c) Free w → Path (cafe c) Free w w' → SameSales w w' := by
  intro h
  have start : Reach (cafe .small) Free .opening := .start unredeemed_opening
  have hr := Machine.reach_trace start (t := [firstSale, .elapse 86400000000000]) rfl
  have hs := h .small _ _ hr (Machine.path_trace (M := cafe .small) (t := [edit "1 h" 1000]) rfl)
  have := hs (weekWith 500) (weekWith 1000) (by decide +kernel) (by decide +kernel) ⟨"2024-01-01", 1, 500⟩ (by decide)
    ⟨"2024-01-01", 1, 1000⟩ (by decide) rfl (by decide)
  cases this

end Didicafe
