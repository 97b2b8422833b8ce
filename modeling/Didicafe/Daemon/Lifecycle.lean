/-
Portal requests, admin revocations, cleanup passes and session restores, interleaved operation by
operation, any of which may fail. Every token moves along its life as long as nothing else deals with a token
while a request redeems it, and the request gets to mark it.

`redeem_token` and `expire_token` do not look at the status they overwrite, so a request that was overtaken
revives a revoked or an expired token, and one whose marking fails leaves a session behind whose end expires
an unused or a revoked token.
-/
import Didicafe.Daemon.Jobs
import Didicafe.Lib.Runs
import Didicafe.Portal.Points
import Didicafe.Session.Calls

namespace Didicafe

open Effect Runs

variable {w w' : World} {req : Request} {fault : Option Err} {pt pt' : AuthPoint}

/-! ## All programs together -/

/-- What the daemon runs. -/
inductive Job where
  | auth (req : Request)
  | revoke (adminUser : String) (id : Int)
  | cleanup (grace : Int)
  | restore (grace : Int)

/-- The programs, whose answers nobody here looks at. -/
def Job.program : Job → Prog Op Op.Out Unit
  | .auth req => (portalAuth req.code req.mac req.ip).void
  | .revoke adminUser id => (apiRevokeToken adminUser id).void
  | .cleanup grace => (cleanupPass grace).void
  | .restore grace => (restoreSessions grace).run.void

/-- A request with the point it has reached, or another job with what is left of its program. -/
inductive Worker where
  | auth (req : Request) (pt : AuthPoint)
  | clerk (job : Job) (rest : Prog Op Op.Out Unit)

namespace Worker

def thread : Worker → Thread Job Op Op.Out Unit
  | .auth req pt => ⟨.auth req, (pt.program req).void⟩
  | .clerk job rest => ⟨job, rest⟩

def redeeming : Worker → Option Int
  | .auth _ pt => pt.redeeming
  | .clerk .. => none

def marking : Worker → Option Int
  | .auth _ pt => pt.marking
  | .clerk .. => none

theorem redeeming_of_marking {x : Worker} {k : Int} (h : x.marking = some k) : x.redeeming = some k := by
  cases x with
  | auth => exact AuthPoint.redeeming_of_marking h
  | clerk => cases h

def migrating : Worker → Option Int
  | .auth _ pt => pt.migrating
  | .clerk .. => none

def Heeds (w : World) : Worker → Prop
  | .auth .. => True
  | .clerk _ rest => clerical.Heeds rest w

end Worker

/-- The state of the database and the workers: a token that is redeemed is fresh, and one with a session is sold,
or about to be marked. -/
structure Ledger (w : World) (ws : List Worker) : Prop where
  redeeming : ∀ x ∈ ws, ∀ k, x.redeeming = some k → Fresh w.db.tables k
  migrating : ∀ x ∈ ws, ∀ k, x.migrating = some k → Sold w.db.tables k
  sessions : ∀ k, HasSession w.db.tables k → Sold w.db.tables k ∨ ∃ x ∈ ws, x.marking = some k
  expiry : ∀ r ∈ w.db.tables.token, r.status = .unused → r.expiresAt = none
  heeds : ∀ x ∈ ws, x.Heeds w

section Ledger

variable {ws : List Worker} {i : Nat} {x x' : Worker}

theorem Fresh.keep {t t' : Tables} {writes opens : Option Int} {k : Int} (h : Fresh t k)
    (hc : Changes t t' writes opens) (hw : writes ≠ some k) : Fresh t' k :=
  fun r hr hid => h r (hc.token r hr (.inl (hid ▸ hw))) hid

/-- No other worker redeems the token. -/
def FreeFor (ws : List Worker) (i : Nat) (k : Int) : Prop :=
  ∀ (j : Nat) y, j ≠ i → ws[j]? = some y → y.redeeming ≠ some k

/-- Worker `i` goes from `x` to `x'` with an operation that writes only a token no other worker redeems. -/
theorem Ledger.set (h : Ledger w ws) (hi : ws[i]? = some x) {writes opens : Option Int}
    (hl : Lawful w.db.tables w'.db.tables) (hc : Changes w.db.tables w'.db.tables writes opens)
    (hwrites : ∀ k, writes = some k → FreeFor ws i k)
    (hred : ∀ k, x'.redeeming = some k → Fresh w'.db.tables k)
    (hmig : ∀ k, x'.migrating = some k → Sold w'.db.tables k)
    (hopens : ∀ k, opens = some k → Sold w'.db.tables k ∨ x'.marking = some k)
    (hmark : ∀ k, x.marking = some k → Sold w'.db.tables k ∨ x'.marking = some k) (hheeds : x'.Heeds w') :
    Ledger w' (ws.set i x') := by
  have hnew : x' ∈ ws.set i x' := List.mem_set (List.getElem?_eq_some_iff.1 hi).1 _
  have cases_set {y : Worker} (hy : y ∈ ws.set i x') : y = x' ∨ ∃ j, j ≠ i ∧ ws[j]? = some y := by
    obtain ⟨j, hj⟩ := List.mem_iff_getElem?.1 hy
    exact (Pool.getElem?_set_cases hj).imp (·.2) fun h => ⟨j, h⟩
  constructor
  case redeeming =>
    intro y hy k hk
    rcases cases_set hy with rfl | ⟨j, hji, hj⟩
    · exact hred k hk
    · exact (h.redeeming y (List.mem_of_getElem? hj) k hk).keep hc fun he => hwrites k he j y hji hj hk
  case migrating =>
    intro y hy k hk
    rcases cases_set hy with rfl | ⟨j, -, hj⟩
    · exact hmig k hk
    · exact (h.migrating y (List.mem_of_getElem? hj) k hk).keep hl
  case sessions =>
    intro k hk
    have after (h : Sold w'.db.tables k ∨ x'.marking = some k) :
        Sold w'.db.tables k ∨ ∃ y ∈ ws.set i x', y.marking = some k := h.imp id fun hm => ⟨x', hnew, hm⟩
    rcases hc.opened k hk with hk | ho
    · rcases h.sessions k hk with hs | ⟨y, hy, hm⟩
      · exact .inl (hs.keep hl)
      · by_cases hyx : y = x
        · exact after (hmark k (hyx ▸ hm))
        · exact .inr ⟨y, Pool.mem_set_of_ne hi hy hyx, hm⟩
    · exact after (hopens k ho)
  case expiry => exact fun r hr hst => h.expiry r (hc.token r hr (.inr hst)) hst
  case heeds =>
    intro y hy
    rcases cases_set hy with rfl | ⟨j, -, hj⟩
    · exact hheeds
    · have hy := h.heeds y (List.mem_of_getElem? hj)
      cases y with
      | auth => trivial
      | clerk => exact Rules.Heeds.later hy hc.kept

/-- An operation of a request that is not overtaken and gets to mark its token. -/
theorem Ledger.auth (h : Ledger w ws) (hi : ws[i]? = some (.auth req pt)) (hs : AuthStep req fault w w' pt pt')
    (hmark : ∀ k, pt.marking = some k → fault = none ∧ FreeFor ws i k) :
    Lawful w.db.tables w'.db.tables ∧ Ledger w' (ws.set i (.auth req pt')) := by
  have hmem := List.mem_of_getElem? hi
  have hl := hs.lawful fun k hk => h.redeeming _ hmem k (AuthPoint.redeeming_of_marking hk)
  obtain ⟨opens, hc, ho⟩ := hs.changes
  refine ⟨hl, h.set hi hl hc (fun k hk => (hmark k hk).2) ?red ?mig ?opens ?mark trivial⟩
  case red =>
    intro k hk
    obtain ⟨hno, hr | ⟨q, hq, hst, rfl⟩⟩ := hs.redeeming hk
    · exact (h.redeeming _ hmem k hr).keep hc (by rw [hno]; nofun)
    · exact (fresh_of_unused w.db.schema (Tables.tokenByCode_some hq).1 hst h.expiry).keep hc (by rw [hno]; nofun)
  case mig =>
    intro k hk
    rcases hs.migrating hk with hm | ⟨q, hq, hst, rfl⟩
    · exact (h.migrating _ hmem k hm).keep hl
    · exact (sold_of_active w.db.schema (Tables.tokenByCode_some hq).1 hst).keep hl
  case opens =>
    intro k hk
    rcases ho k hk with hm | hm
    · exact .inr hm
    · exact .inl ((h.migrating _ hmem k hm).keep hl)
  case mark =>
    intro k hk
    obtain ⟨rfl, -⟩ := hmark k hk
    exact .inl (hs.sold_of_marking hk)

/-- An operation of another job, when it writes no token that a request redeems. -/
theorem Ledger.clerk (h : Ledger w ws) {job : Job} {rest rest' : Prog Op Op.Out Unit}
    (hi : ws[i]? = some (.clerk job rest)) (hs : rest.step (World.exec fault) w = some (rest', w'))
    (hfree : ∀ op next k, rest = .call op next → fault = none → op.writes = some k → FreeFor ws i k) :
    Lawful w.db.tables w'.db.tables ∧ Ledger w' (ws.set i (.clerk job rest')) := by
  have hheeds : clerical.Heeds rest w := h.heeds _ (List.mem_of_getElem? hi)
  obtain ⟨⟨op, next, hrest, hok, hw⟩, hnext⟩ := hheeds.step hs
  have hw : w' = (World.exec fault op w).2 := hw
  cases fault with
  | some e =>
    obtain rfl : w = w' := (hw.trans (World.exec_some e op w)).symm
    have hl := Lawful.of_eq w.db.schema rfl
    exact ⟨hl, h.set hi hl (.of_eq rfl (fun _ => Iff.rfl) none none) nofun nofun nofun nofun nofun hnext⟩
  | none =>
    subst hw
    have hfree := fun k => hfree op next k hrest rfl
    have hl : Lawful w.db.tables (World.exec none op w).2.db.tables := by
      apply hok.lawful
      intro id hop
      subst hop
      -- the token of a session is sold, unless a request is about to mark it
      rcases h.sessions id hok with hsold | ⟨y, hy, hm⟩
      · exact hsold
      obtain ⟨j, hj⟩ := List.mem_iff_getElem?.1 hy
      by_cases hji : j = i
      · rw [hji, hi] at hj; cases hj; cases hm
      · exact absurd (Worker.redeeming_of_marking hm) (hfree id rfl j y hji hj)
    exact ⟨hl, h.set hi hl hok.changes hfree nofun nofun nofun nofun hnext⟩

end Ledger

/-! ## Runs -/

abbrev Daemon := Pool Job Op Op.Out Unit World

/-- A job is started, a job performs its next operation, which may fail, or time passes. -/
inductive DaemonEvent where
  | start (job : Job)
  | advance (i : Nat) (fault : Option Err)
  | elapse (nanos : Nat)

namespace Daemon

def step (p : Daemon) : DaemonEvent → Option Daemon
  | .start job => some (p.spawn ⟨job, job.program⟩)
  | .advance i fault => p.advance (World.exec fault) i
  | .elapse nanos => some { p with shared := { p.shared with now := p.shared.now + nanos } }

/-- Nothing runs, every token with a session is sold, and no unused token has an expiry. -/
structure Stopped (p : Daemon) : Prop where
  threads : p.threads = []
  sessions : ∀ k, HasSession p.shared.db.tables k → Sold p.shared.db.tables k
  expiry : ∀ r ∈ p.shared.db.tables.token, r.status = .unused → r.expiresAt = none

/-- No thread besides thread `i` is a request that redeems the token. -/
def FreeFor (p : Daemon) (i : Nat) (k : Int) : Prop :=
  ∀ (j : Nat) y, j ≠ i → p.threads[j]? = some y → ∀ req pt, y = (Worker.auth req pt).thread → pt.redeeming ≠ some k

/-- A token is written only when no other thread is a request that redeems it, and marking a redeemed token does
not fail. -/
def Undisturbed (p : Daemon) : DaemonEvent → Prop
  | .advance i fault => ∀ t op next, p.threads[i]? = some t → t.rest = .call op next →
    (fault = none → ∀ k, op.writes = some k → p.FreeFor i k) ∧
    ∀ k expiresAt, op = .sql (.redeemToken k expiresAt) → fault = none
  | .start _ | .elapse _ => True

end Daemon

open Daemon

def daemon : Machine Daemon DaemonEvent := ⟨Stopped, Daemon.step⟩

/-- The threads are workers whose state is sound. -/
def Daemon.Sound (p : Daemon) : Prop := ∃ ws : List Worker, p.threads = ws.map Worker.thread ∧ Ledger p.shared ws

theorem Ledger.elapse {ws : List Worker} (h : Ledger w ws) (now : Int) : Ledger { w with now := now } ws := by
  refine ⟨h.redeeming, h.migrating, h.sessions, h.expiry, fun x hx => ?_⟩
  have hx := h.heeds x hx
  cases x with
  | auth => trivial
  | clerk => exact Rules.Heeds.later hx fun _ h => h

theorem Ledger.append {ws : List Worker} (h : Ledger w ws) {x : Worker} (hr : x.redeeming = none)
    (hm : x.migrating = none) (hh : x.Heeds w) : Ledger w (ws ++ [x]) := by
  have cases_append {y : Worker} (hy : y ∈ ws ++ [x]) : y ∈ ws ∨ y = x :=
    (List.mem_append.1 hy).imp id List.mem_singleton.1
  constructor
  case redeeming =>
    intro y hy k hk
    rcases cases_append hy with hy | rfl
    · exact h.redeeming y hy k hk
    · rw [hr] at hk; cases hk
  case migrating =>
    intro y hy k hk
    rcases cases_append hy with hy | rfl
    · exact h.migrating y hy k hk
    · rw [hm] at hk; cases hk
  case sessions =>
    intro k hk
    rcases h.sessions k hk with hs | ⟨y, hy, hm⟩
    · exact .inl hs
    · exact .inr ⟨y, List.mem_append.2 (.inl hy), hm⟩
  case expiry => exact h.expiry
  case heeds =>
    intro y hy
    rcases cases_append hy with hy | rfl
    · exact h.heeds y hy
    · exact hh

theorem Job.worker (job : Job) (w : World) : ∃ x : Worker, x.thread = ⟨job, job.program⟩ ∧ x.redeeming = none ∧
    x.migrating = none ∧ x.Heeds w := by
  cases job with
  | auth req => exact ⟨.auth req .lookup, rfl, rfl, rfl, trivial⟩
  | revoke adminUser id => exact ⟨.clerk _ _, rfl, rfl, rfl, (heeds_apiRevokeToken adminUser id).void⟩
  | cleanup grace => exact ⟨.clerk _ _, rfl, rfl, rfl, (heeds_cleanupPass grace).void⟩
  | restore grace => exact ⟨.clerk _ _, rfl, rfl, rfl, (heeds_restoreSessions grace).void⟩

theorem Daemon.Sound.start {p : Daemon} (h : p.Sound) (job : Job) : Daemon.Sound (p.spawn ⟨job, job.program⟩) := by
  obtain ⟨ws, hws, hl⟩ := h
  obtain ⟨x, hx, hr, hm, hh⟩ := job.worker p.shared
  refine ⟨ws ++ [x], ?_, hl.append hr hm hh⟩
  rw [List.map_append, ← hws]
  show p.threads ++ [_] = p.threads ++ [x.thread]
  rw [hx]

theorem Daemon.Sound.advance {p p' : Daemon} (h : p.Sound) {i : Nat} (hok : p.Undisturbed (.advance i fault))
    (hs : p.advance (World.exec fault) i = some p') :
    Lawful p.shared.db.tables p'.shared.db.tables ∧ p'.Sound := by
  obtain ⟨ws, hws, hl⟩ := h
  obtain ⟨x, ⟨rest', w'⟩, hx, ht, hy, rfl⟩ := Pool.advance_map hws hs
  have free {k : Int} (hf : p.FreeFor i k) : Didicafe.FreeFor ws i k := by
    intro j y hj hy hr
    cases y with
    | auth req pt =>
      refine hf j _ hj ?_ req pt rfl hr
      rw [hws, List.getElem?_map, hy]; rfl
    | clerk => cases hr
  have hok := fun op next => hok x.thread op next ht
  cases x with
  | auth req pt =>
    have hy : (pt.program req).void.step (World.exec fault) p.shared = some (rest', w') := hy
    rw [Prog.step_void] at hy
    obtain ⟨y, hstep, he⟩ := Option.map_eq_some_iff.1 hy
    obtain ⟨rfl, rfl⟩ := Prod.mk.inj he
    obtain ⟨pt', hpt, hstep⟩ := auth_step hstep
    have hmark : ∀ k, pt.marking = some k → fault = none ∧ Didicafe.FreeFor ws i k := by
      intro k hk
      cases pt with
      | redeem k' expiresStr =>
        obtain ⟨hfree, hfault⟩ := hok (.sql (.redeemToken k'.id expiresStr)) _ rfl
        have hfault := hfault _ _ rfl
        exact ⟨hfault, free (hfree hfault k hk)⟩
      | _ => cases hk
    obtain ⟨hlaw, hl'⟩ := hl.auth hx hstep hmark
    refine ⟨hlaw, _, ?_, hl'⟩
    rw [List.map_set, hpt]; rfl
  | clerk job rest =>
    obtain ⟨hlaw, hl'⟩ := hl.clerk hx hy fun op next k hr hf hw => free ((hok op next hr).1 hf k hw)
    refine ⟨hlaw, _, ?_, hl'⟩
    rw [List.map_set]; rfl

theorem Daemon.Sound.step {p p' : Daemon} (h : p.Sound) {c : DaemonEvent} (hok : p.Undisturbed c)
    (hs : daemon.step p c = some p') : Lawful p.shared.db.tables p'.shared.db.tables ∧ p'.Sound := by
  cases c with
  | start job => cases hs; exact ⟨.of_eq p.shared.db.schema rfl, h.start job⟩
  | advance i fault => exact h.advance hok hs
  | elapse nanos =>
    cases hs
    obtain ⟨ws, hws, hl⟩ := h
    exact ⟨.of_eq p.shared.db.schema rfl, ws, hws, hl.elapse _⟩

theorem Daemon.sound_of_reach {p : Daemon} (h : Reach daemon Undisturbed p) : p.Sound := by
  refine h.invariant (I := Daemon.Sound) (fun p h0 => ?_) fun p c p' hi hok hs => (hi.step hok hs).2
  have h0 : p.Stopped := h0
  exact ⟨[], h0.threads, fun _ hx => absurd hx List.not_mem_nil, fun _ hx => absurd hx List.not_mem_nil,
    fun k hk => .inl (h0.sessions k hk), h0.expiry, fun _ hx => absurd hx List.not_mem_nil⟩

/-- In every run in which tokens being redeemed are left alone and get marked, every step moves the tokens along
their lives, so that a token that has ended never becomes active again and an expiry never changes. -/
theorem lawful_of_undisturbed {p : Daemon} (h : Reach daemon Undisturbed p) :
    (∀ c p', p.Undisturbed c → daemon.step p c = some p' → Lawful p.shared.db.tables p'.shared.db.tables) ∧
      ∀ p', Path daemon Undisturbed p p' → Settled p.shared.db.tables p'.shared.db.tables := by
  refine ⟨fun c p' hok hs => ((sound_of_reach h).step hok hs).1, fun p' hp => ?_⟩
  refine (h.path (R := fun p p' => Settled p.shared.db.tables p'.shared.db.tables) ?_ ?_ ?_ hp).2
  · exact fun p => .refl p.shared.db.tables
  · exact fun _ _ _ hr hr' => hr.trans hr'
  · exact fun q c q' hq hok hs => ((sound_of_reach hq).step hok hs).1.settled

/-! ## A redemption, and a revocation in the middle of it -/

theorem undisturbed_alone {p : Daemon} {t : Thread Job Op Op.Out Unit} (h : p.threads = [t]) :
    p.Undisturbed (.advance 0 none) := by
  intro t' op next _ _
  refine ⟨fun _ k _ j y hj hy => ?_, fun _ _ _ => rfl⟩
  rw [h, List.getElem?_eq_none (by rw [List.length_singleton]; omega)] at hy
  cases hy

def Daemon.opening : Daemon := ⟨.opening, []⟩

theorem stopped_opening : Daemon.opening.Stopped :=
  ⟨rfl, (fun _ h => nomatch h.choose_spec.1), by decide⟩

def Job.first : Job := .auth ⟨"AAAA", "02:00:00:00:00:01", "10.0.0.2"⟩

/-- The last operation of the first customer's request. -/
theorem lawful_first : ∃ p p', daemon.step p (.advance 0 none) = some p' ∧
    (∃ r ∈ p'.shared.db.tables.token, r.id = 1 ∧ r.status = .active) ∧
    Lawful p.shared.db.tables p'.shared.db.tables := by
  have start : Reach daemon Undisturbed .opening := .start stopped_opening
  have hok : Daemon.opening.Undisturbed (.start .first) := trivial
  have posted := start.step hok rfl
  have lookedUp := posted.step (undisturbed_alone rfl) rfl
  have clocked := lookedUp.step (undisturbed_alone rfl) rfl
  have admitted := clocked.step (undisturbed_alone rfl) rfl
  have inserted := admitted.step (undisturbed_alone rfl) rfl
  exact ⟨_, _, rfl, by decide, (lawful_of_undisturbed inserted).1 _ _ (undisturbed_alone rfl) rfl⟩

/-- The admin revokes the token between its lookup and its marking. -/
def overtaken : List DaemonEvent :=
  [.start .first, .advance 0 none, .start (.revoke "admin" 1), .advance 1 none, .advance 1 none, .advance 0 none,
    .advance 0 none, .advance 0 none]

/-- The marking then makes the revoked token active. -/
theorem overtaken_not_lawful : ¬ ∀ p, Reach daemon Free p → ∀ c p', daemon.step p c = some p' →
    Lawful p.shared.db.tables p'.shared.db.tables := by
  refine Machine.refute overtaken stopped_opening (by decide) fun h => ?_
  have hl := h (.advance 0 none) _ rfl
  exact absurd (fun r hr r' hr' hid => (hl.moves r hr r' hr' hid).status) (by decide)

end Didicafe
