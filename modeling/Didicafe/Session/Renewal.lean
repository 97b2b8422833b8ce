/-
One cleanup pass against customers who renew while it runs. The pass works on the rows it fetched and
removes pairs, not sessions, so a session opened on the pair of a fetched row loses its admission when
the pass ends the fetched row.

The pass is given by its points, the places between two of its operations; each step from point to
point is one operation of the program `cleanupPass`.
-/
import Didicafe.Session.Cleanup
import Didicafe.Session.Site

namespace Didicafe

open Effect Runs

variable {grace : Int} {w w' : World}

/-! ## The points of a pass -/

/-- Where a pass stands: before the fetch, before it reads the clock for a session, before it removes the
session's pair, marks its row or marks its token, with the fetched sessions still to come. -/
inductive PassPoint where
  | fetch
  | examine (session : Session) (rest : List Session)
  | remove (session : Session) (rest : List Session)
  | markSession (session : Session) (rest : List Session)
  | markToken (session : Session) (rest : List Session)
  | finished

namespace PassPoint

/-- The point before the sessions still to come. -/
def turn : List Session → PassPoint
  | [] => .finished
  | k :: l => .examine k l

/-- One operation of the pass. -/
def step (grace : Int) (w : World) : PassPoint → Option (World × PassPoint)
  | .fetch => some (w, turn w.db.tables.sessionActive)
  | .examine k l => some (w, if k.endedBy grace w.now then .remove k l else turn l)
  | .remove k l => some ((noFault (.nft (.deleteElement k.macAddress k.ipAddress)) w).2, .markSession k l)
  | .markSession k l => some ((noFault (.sql (.expireSession k.id)) w).2, .markToken k l)
  | .markToken k l => some ((noFault (.sql (.expireToken k.tokenId)) w).2, turn l)
  | .finished => none

section Program

variable (grace)

/-- What the pass still has to do before it marks a token, and before it marks a session. -/
def tokenLeft (k : Session) (l : List Session) : Prog Op Op.Out PUnit :=
  .call (.sql (.expireToken k.tokenId)) fun _ => l.forM (cleanupSession grace)

def sessionLeft (k : Session) (l : List Session) : Prog Op Op.Out PUnit :=
  .call (.sql (.expireSession k.id)) fun
    | .ok _ => tokenLeft grace k l
    | .error _ => l.forM (cleanupSession grace)

/-- What the pass still has to do at a point. -/
def program : PassPoint → Prog Op Op.Out PUnit
  | .fetch => cleanupPass grace
  | .examine k l => (k :: l).forM (cleanupSession grace)
  | .remove k l => .call (.nft (.deleteElement k.macAddress k.ipAddress)) fun _ => sessionLeft grace k l
  | .markSession k l => sessionLeft grace k l
  | .markToken k l => tokenLeft grace k l
  | .finished => .done ⟨⟩

end Program

theorem program_turn (l : List Session) : (turn l).program grace = l.forM (cleanupSession grace) := by
  cases l <;> rfl

/-- The program that examines a session: it reads the clock, and goes on to the removal when the session is to
be ended. -/
theorem program_examine (k : Session) (l : List Session) : (examine k l).program grace =
    .call .utcNow fun now => if k.endedBy grace now then (remove k l).program grace else (turn l).program grace := by
  apply Prog.call_congr
  intro now
  show Prog.bind (if k.remainingAt now ≤ -grace then _ else _) _ = _
  by_cases hr : k.remainingAt now ≤ -grace
  · rw [if_pos hr]
    unfold deauthorizeClient
    cases hm : validateMac k.macAddress with
    | ok =>
      rw [if_pos (SessionRow.endedBy_iff.2 ⟨hr, hm⟩)]
      refine Prog.call_congr fun _ => Prog.call_congr fun x => ?_
      cases x <;> rfl
    | error e =>
      have hn : ¬ k.endedBy grace now = true := fun h => by
        rw [(SessionRow.endedBy_iff.1 h).2] at hm
        cases hm
      rw [if_neg hn, program_turn]
      rfl
  · rw [if_neg hr, if_neg fun h => hr (SessionRow.endedBy_iff.1 h).1, program_turn]
    rfl

/-- A step of the pass is the next operation of its program. -/
theorem step_program {pt pt' : PassPoint} (h : pt.step grace w = some (w', pt')) :
    ∃ op next, pt.program grace = .call op next ∧ w' = (noFault op w).2 ∧
      next (noFault op w).1 = pt'.program grace := by
  cases pt with
  | fetch =>
    cases h
    refine ⟨.sql .getActiveSessions, fun
      | .error _ => .done ⟨⟩
      | .ok l => l.forM (cleanupSession grace), ?_, rfl, (program_turn _).symm⟩
    apply Prog.call_congr
    intro x
    cases x <;> rfl
  | examine k l =>
    cases h
    refine ⟨_, _, program_examine k l, rfl, ?_⟩
    show (if k.endedBy grace w.now then _ else _) = _
    split <;> rfl
  | remove k l => cases h; exact ⟨_, _, rfl, rfl, rfl⟩
  | markSession k l => cases h; exact ⟨_, _, rfl, rfl, rfl⟩
  | markToken k l => cases h; exact ⟨_, _, rfl, rfl, (program_turn l).symm⟩
  | finished => cases h

theorem step_none {pt : PassPoint} (h : pt.step grace w = none) : pt.program grace = .done ⟨⟩ := by
  cases pt <;> first | rfl | cases h

end PassPoint

/-! ## The pass among renewals -/

structure PassState where
  world : World
  point : PassPoint

/-- One operation of the pass, a complete call for a customer, or time passing. -/
inductive PassEvent where
  | pass
  | create (tokenId minutes : Int) (mac ip : String)
  | migrate (tokenId : Int) (newMac newIp : String)
  | elapse (nanos : Nat)

def PassState.step (grace : Int) (s : PassState) : PassEvent → Option PassState
  | .pass => (s.point.step grace s.world).map fun x => ⟨x.1, x.2⟩
  | .create tokenId minutes mac ip => (Call.step s.world (.create tokenId minutes mac ip)).map ({ s with world := · })
  | .migrate tokenId newMac newIp => (Call.step s.world (.migrate tokenId newMac newIp)).map ({ s with world := · })
  | .elapse nanos => (Call.step s.world (.elapse nanos)).map ({ s with world := · })

/-- A pass starts on any state. -/
def renewal (grace : Int) : Machine PassState PassEvent := ⟨fun s => s.point = .fetch, PassState.step grace⟩

/-- The pair the pass is about to remove is not that of an active session in time. -/
def SparesRenewed (s : PassState) : Prop := ∀ k l, s.point = .remove k l →
  ¬ ∃ r e, s.world.Active r ∧ r.pair = k.pair ∧ r.expiry = some e ∧ s.world.now < e

/-- A session that the pass decides to end is over, and the only active one on its pair; and no call opens a
session on the pair between that decision and the removal. -/
def Unrenewed (grace : Int) (s : PassState) : PassEvent → Prop
  | .pass => ∀ k l, s.point = .examine k l → k.endedBy grace s.world.now = true →
    (∀ r, s.world.Active r → r.pair = k.pair → r = k.toSessionRow) ∧ ∀ e, k.expiry = some e → e ≤ s.world.now
  | .create _ _ mac ip | .migrate _ mac ip => ∀ k l, s.point = .remove k l → (mac, ip) ≠ k.pair
  | .elapse _ => True

theorem PassPoint.turn_ne_remove (l : List Session) (k : Session) (l' : List Session) : turn l ≠ .remove k l' := by
  cases l <;> nofun

theorem SparesRenewed.pass {s : PassState} {pt : PassPoint} (hok : Unrenewed grace s .pass)
    (hs : s.point.step grace s.world = some (w', pt)) : SparesRenewed ⟨w', pt⟩ := by
  rintro k l rfl ⟨r, e, hr, hp, he, hlt⟩
  cases hpt : s.point with
  | examine k' l' =>
    rw [hpt] at hs
    obtain ⟨rfl, hk⟩ := Prod.mk.inj (Option.some.inj hs)
    split at hk
    · rename_i hend
      cases hk
      obtain ⟨honly, hover⟩ := hok k l hpt hend
      rw [honly r hr hp] at he
      have := hover e he
      have hlt : s.world.now < e := hlt
      omega
    · exact PassPoint.turn_ne_remove l' k l hk
  | fetch =>
    rw [hpt] at hs
    exact PassPoint.turn_ne_remove _ k l (Prod.mk.inj (Option.some.inj hs)).2
  | markToken k' l' =>
    rw [hpt] at hs
    exact PassPoint.turn_ne_remove l' k l (Prod.mk.inj (Option.some.inj hs)).2
  | remove | markSession | finished => rw [hpt] at hs; cases hs

theorem SparesRenewed.opened {s : PassState} {old : Option SessionRow} {new : SessionRow} (h : SparesRenewed s)
    (o : Opened s.world w' old new) (hne : ∀ k l, s.point = .remove k l → new.pair ≠ k.pair) :
    SparesRenewed { s with world := w' } := by
  rintro k l hpt ⟨r, e, hr, hp, he, hlt⟩
  rcases (o.active r).1 hr with ⟨hr, -⟩ | rfl
  · exact h k l hpt ⟨r, e, hr, hp, he, by rw [← o.now]; exact hlt⟩
  · exact hne k l hpt hp

theorem SparesRenewed.step {s s' : PassState} {c : PassEvent} (h : SparesRenewed s) (hok : Unrenewed grace s c)
    (hs : (renewal grace).step s c = some s') : SparesRenewed s' := by
  cases c with
  | pass =>
    obtain ⟨⟨w', pt⟩, hx, rfl⟩ := Option.map_eq_some_iff.1 hs
    exact SparesRenewed.pass hok hx
  | create tokenId minutes mac ip =>
    obtain ⟨w', hx, rfl⟩ := Option.map_eq_some_iff.1 hs
    obtain ⟨new, o, hp⟩ := step_create hx
    exact h.opened o fun k l hpt => by rw [hp]; exact hok k l hpt
  | migrate tokenId mac ip =>
    obtain ⟨w', hx, rfl⟩ := Option.map_eq_some_iff.1 hs
    obtain ⟨k, new, -, o, hp⟩ := step_migrate hx
    exact h.opened o fun k l hpt => by rw [hp]; exact hok k l hpt
  | elapse nanos =>
    cases hs
    rintro k l hpt ⟨r, e, hr, hp, he, hlt⟩
    have hlt : s.world.now + (nanos : Int) < e := hlt
    exact h k l hpt ⟨r, e, hr, hp, he, by omega⟩

/-- In every run in which the sessions the pass ends are over and not renewed before their removal, the pass
never removes the pair of an active session in time. -/
theorem sparesRenewed_of_unrenewed {s : PassState} (h : Reach (renewal grace) (Unrenewed grace) s) :
    SparesRenewed s := by
  refine h.invariant (fun s h0 => ?_) fun s c s' hi hok hs => hi.step hok hs
  have h0 : s.point = .fetch := h0
  intro k l hpt
  rw [h0] at hpt; cases hpt

theorem PassPoint.turn_examine {l l' : List Session} {k : Session} (h : turn l = .examine k l') : l = k :: l' := by
  cases l <;> cases h
  rfl

theorem unrenewed_overtime (pt : PassPoint) (h : pt = .fetch ∨ pt = .turn World.overtime.db.tables.sessionActive) :
    Unrenewed 0 ⟨.overtime, pt⟩ .pass := by
  intro k l hk _
  have hmem : k ∈ World.overtime.db.tables.sessionActive := by
    rcases h with rfl | rfl
    · cases hk
    · have hk : PassPoint.turn World.overtime.db.tables.sessionActive = .examine k l := hk
      rw [PassPoint.turn_examine hk]; exact List.mem_cons_self ..
  have hrow := active_firstSale.1 (Tables.mem_sessionActive hmem)
  refine ⟨fun r hr _ => (active_firstSale.1 hr).trans hrow.symm, fun e he => ?_⟩
  rw [hrow, expiry_firstSession] at he
  rw [he]
  exact (by decide : 1704099600 * nanosPerSec ≤ World.overtime.now)

/-- The pass that is about to remove the pair of the first customer, an hour after the session's end. -/
theorem sparesRenewed_overtime : ∃ k, k.toSessionRow = firstSession ∧ SparesRenewed ⟨.overtime, .remove k []⟩ :=
  ⟨_, rfl, sparesRenewed_of_unrenewed (.step (.step (.start (M := renewal 0) (s := ⟨.overtime, .fetch⟩) rfl)
    (unrenewed_overtime _ (.inl rfl)) rfl) (unrenewed_overtime _ (.inr rfl)) rfl)⟩

/-- The first customer redeems a second code between the decision to end the old session and the removal. -/
def renewed : List PassEvent := [.pass, .pass, .create 2 60 "02:00:00:00:00:01" "10.0.0.2"]

/-- The session of the first customer's second code. -/
def secondSession : SessionRow where
  id := 2
  tokenId := 2
  macAddress := "02:00:00:00:00:01"
  ipAddress := "10.0.0.2"
  startedAt := "2024-01-01 10:00:00"
  expiresAt := "2024-01-01 11:00:00"
  status := .active

/-- Without a grace period the pass then removes the pair of the renewed session. -/
theorem renewed_removed : ¬ ∀ s, Reach (renewal 0) Free s → SparesRenewed s := by
  refine Machine.refute renewed (s := ⟨.overtime, .fetch⟩) rfl rfl fun h => ?_
  exact h _ [] rfl ⟨secondSession, 1704106800 * nanosPerSec, by decide, by decide, by decide, by decide⟩

end Didicafe
