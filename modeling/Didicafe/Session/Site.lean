/-
The site as a machine: from a state in which nobody is online, complete calls of the session services,
cleanup passes and the passing of time follow each other in any order. A call is a step when it answers
`Ok`.
-/
import Didicafe.Lib.Runs
import Didicafe.Session.Passes

namespace Didicafe

open Effect Runs

variable {w w' : World} {α : Type}

inductive Call where
  | create (tokenId minutes : Int) (mac ip : String)
  | migrate (tokenId : Int) (newMac newIp : String)
  | disconnect (sessionId : Int)
  | cleanup (grace : Int)
  | elapse (nanos : Nat)

/-- The state after a call that answers `Ok`. -/
def completed (x : Except Err α × World) : Option World :=
  match x.1 with
  | .ok _ => some x.2
  | .error _ => none

theorem completed_some {x : Except Err α × World} (h : completed x = some w') : ∃ a, x = (.ok a, w') := by
  obtain ⟨_ | a, w₁⟩ := x
  · cases h
  · cases h; exact ⟨a, rfl⟩

def Call.step (w : World) : Call → Option World
  | .create tokenId minutes mac ip => completed (Fallible.exec noFault (createSession tokenId minutes mac ip) w)
  | .migrate tokenId newMac newIp => completed (Fallible.exec noFault (migrateSession tokenId newMac newIp) w)
  | .disconnect sessionId => completed (Fallible.exec noFault (Didicafe.disconnect sessionId) w)
  | .cleanup grace => some ((cleanupPass grace).run noFault w).2
  | .elapse nanos => some { w with now := w.now + nanos }

/-- No session is active and no pair is admitted. -/
def Offline (w : World) : Prop := (∀ s, ¬ w.Active s) ∧ ∀ p, ¬ w.set.Mem w.now p

def site : Machine World Call := ⟨Offline, Call.step⟩

/-! ## The steps -/

theorem step_create {tokenId minutes : Int} {mac ip : String}
    (h : site.step w (.create tokenId minutes mac ip) = some w') :
    ∃ new, Opened w w' none new ∧ new.pair = (mac, ip) := by
  obtain ⟨id, h⟩ := completed_some h
  obtain ⟨new, ho, hp, -⟩ := opened_of_createSession h
  exact ⟨new, ho, hp⟩

theorem step_migrate {tokenId : Int} {mac ip : String} (h : site.step w (.migrate tokenId mac ip) = some w') :
    ∃ k new, w.db.tables.sessionByToken tokenId = some k ∧ Opened w w' (some k.toSessionRow) new ∧
      new.pair = (mac, ip) := by
  obtain ⟨id, h⟩ := completed_some h
  obtain ⟨k, new, hk, ho, hp, -⟩ := opened_of_migrateSession h
  exact ⟨k, new, hk, ho, hp⟩

/-- What disconnecting the session of row `r` leaves. -/
structure Closed (w w' : World) (r : SessionRow) : Prop where
  row : r ∈ w.db.tables.session
  now : w'.now = w.now
  active : ∀ s, w'.Active s ↔ w.Active s ∧ s ≠ r
  set : w'.set = w.set.erase r.pair

theorem step_disconnect {sessionId : Int} (h : site.step w (.disconnect sessionId) = some w') :
    ∃ r, r.id = sessionId ∧ Closed w w' r := by
  obtain ⟨u, h⟩ := completed_some h
  obtain ⟨r, hr, rfl, hnow, hset, htab⟩ := exec_disconnect_ok h
  refine ⟨r, rfl, hr, hnow, fun s => ?_, hset⟩
  show w'.db.tables.Active s ↔ _
  rw [htab]
  show (w.db.tables.setSessionStatus _ _).Active s ↔ _
  rw [Tables.active_endSession (by decide)]
  refine and_congr_right fun hs => not_congr ⟨fun he => ?_, congrArg _⟩
  exact Table.eq_of_key w.db.schema.sessionId hs.1 hr he

theorem step_cleanup {grace : Int} (h : site.step w (.cleanup grace) = some w') :
    Cleaned (fun _ => none) grace w w' := by
  cases h
  exact run_cleanupPass (fun _ => rfl) grace w

/-! ## One session per device, and only valid MACs -/

/-- Every active session has a valid MAC of its own. -/
structure Devices (w : World) : Prop where
  onePerMac : w.db.tables.OnePerMac
  macValid : ∀ s, w.Active s → validateMac s.macAddress = .ok ()

theorem Devices.of_subset (h : Devices w) (hs : ∀ s, w'.Active s → w.Active s) : Devices w' :=
  ⟨Tables.onePerMac_of fun _ _ ha hb => h.onePerMac.eq (hs _ ha) (hs _ hb), fun s ha => h.macValid s (hs s ha)⟩

theorem Opened.devices {old : Option SessionRow} {new : SessionRow} (o : Opened w w' old new) (h : Devices w) :
    Devices w' :=
  ⟨o.onePerMac h.onePerMac, fun s hs => by
    rcases (o.active s).1 hs with ⟨hs, -⟩ | rfl
    · exact h.macValid s hs
    · exact o.macValid⟩

theorem Devices.step {c : Call} (h : Devices w) (hs : site.step w c = some w') : Devices w' := by
  cases c with
  | create =>
    obtain ⟨new, ho, -⟩ := step_create hs
    exact ho.devices h
  | migrate =>
    obtain ⟨k, new, -, ho, -⟩ := step_migrate hs
    exact ho.devices h
  | disconnect =>
    obtain ⟨r, -, hc⟩ := step_disconnect hs
    exact h.of_subset fun s ha => ((hc.active s).1 ha).1
  | cleanup =>
    exact h.of_subset fun s ha => (((step_cleanup hs).active s).1 ha).1
  | elapse => cases hs; exact h.of_subset fun _ ha => ha

theorem Offline.devices (h : Offline w) : Devices w :=
  ⟨Tables.onePerMac_of fun a _ ha => absurd ha (h.1 a), fun s hs => absurd hs (h.1 s)⟩

/-! ## The first sale as a run -/

theorem offline_opening : Offline .opening := by
  constructor
  · rintro s ⟨hs, -⟩
    cases hs
  · rintro p ⟨e, he, -⟩
    cases he

def Call.first : Call := .create 1 60 "02:00:00:00:00:01" "10.0.0.2"

theorem reach_firstSale {ok : World → Call → Prop} (h : ok .opening .first) : Reach site ok .firstSale :=
  .step (.start offline_opening) h rfl

end Didicafe
