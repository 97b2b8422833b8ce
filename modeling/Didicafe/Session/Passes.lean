/-
The two loops over the active sessions, when every statement succeeds: what a cleanup pass leaves,
also when `nft` commands fail, and what the restore at startup leaves.
-/
import Didicafe.Session.Calls

namespace Didicafe

open Effect

variable {env : Op → Option Err} {w : World} {grace : Int}

/-- A session's row and its token marked as expired. -/
def World.endSession (w : World) (s : SessionRow) : World :=
  { w with db := ((w.db.exec w.now (.expireSession s.id)).2.exec w.now (.expireToken s.tokenId)).2 }

@[simp] theorem World.tables_endSession (s : SessionRow) : (w.endSession s).db.tables = w.db.tables.endSession s := rfl

@[simp] theorem World.now_endSession (s : SessionRow) : (w.endSession s).now = w.now := rfl

@[simp] theorem World.set_endSession (s : SessionRow) : (w.endSession s).set = w.set := rfl

/-! ## The cleanup pass -/

/-- A session the ticker ends at `now`: the remaining time is at most `-grace` and the firewall takes
its MAC. -/
def SessionRow.endedBy (grace now : Int) (s : SessionRow) : Bool :=
  decide (s.remainingAt now ≤ -grace) && isValidMac s.macAddress

theorem SessionRow.endedBy_iff {now : Int} {s : SessionRow} :
    s.endedBy grace now = true ↔ s.remainingAt now ≤ -grace ∧ validateMac s.macAddress = .ok () := by
  unfold endedBy
  rw [Bool.and_eq_true, decide_eq_true_iff, isValidMac_iff]

/-- The deletion of a session's pair goes through. -/
def removable (env : Op → Option Err) (s : SessionRow) : Bool :=
  (env (.nft (.deleteElement s.macAddress s.ipAddress))).isNone

def World.retire (env : Op → Option Err) (w : World) (s : SessionRow) : World :=
  { w.endSession s with set := if removable env s then w.set.erase s.pair else w.set }

theorem run_run {α : Type} (x : App α) : Prog.run (failing env) x.run w = Fallible.exec (failing env) x w := rfl

theorem run_remainingSeconds (k : Session) : k.remainingSeconds.run (failing env) w = (k.remainingAt w.now, w) := rfl

/-- The statements both loops end a session with. -/
theorem run_endSession (hsql : ∀ q, env (.sql q) = none) (k : Session) :
    (Prog.run (failing env) (do
      match ← (sql (.expireSession k.id)).run with
      | .error _ => return ()
      | .ok () =>
        let _ ← (sql (.expireToken k.tokenId)).run
        return ()) w).2 = w.endSession k.toSessionRow := by
  rw [Prog.run_bind, run_run, exec_sql_of_none w (hsql _)]
  simp only [Sql.run, Prog.run_bind, run_run, exec_sql_of_none _ (hsql _)]
  rfl

theorem run_cleanupSession (hsql : ∀ q, env (.sql q) = none) (k : Session) :
    ((cleanupSession grace k).run (failing env) w).2 =
      if k.endedBy grace w.now then w.retire env k.toSessionRow else w := by
  unfold cleanupSession
  rw [Prog.run_bind, run_remainingSeconds]
  simp only
  by_cases hr : k.remainingAt w.now ≤ -grace
  · rw [if_pos hr, Prog.run_bind, run_run]
    by_cases hm : validateMac k.macAddress = .ok ()
    · rw [if_pos (SessionRow.endedBy_iff.2 ⟨hr, hm⟩), exec_deauthorizeClient env w _ hm]
      refine (run_endSession hsql k).trans ?_
      unfold World.retire removable
      cases env (.nft (.deleteElement k.macAddress k.ipAddress)) <;> rfl
    · obtain ⟨e, he⟩ := exec_deauthorizeClient_invalid env w k.ipAddress hm
      rw [if_neg (fun h => hm (SessionRow.endedBy_iff.1 h).2), he]; rfl
  · rw [if_neg hr, if_neg (fun h => hr (SessionRow.endedBy_iff.1 h).1)]; rfl

/-- The active rows a pass at `now` ends. -/
def Tables.overdue (t : Tables) (grace now : Int) : List SessionRow :=
  t.session.filter fun s => s.isActive && s.endedBy grace now

theorem Tables.mem_overdue {t : Tables} {now : Int} {s : SessionRow} :
    s ∈ t.overdue grace now ↔ t.Active s ∧ s.endedBy grace now = true := by
  unfold overdue Active
  rw [List.mem_filter, Bool.and_eq_true, and_assoc]

/-- What a pass leaves: the rows that are overdue at its instant ended with their tokens, and the pairs of
those whose deletion goes through erased. -/
structure Cleaned (env : Op → Option Err) (grace : Int) (w w' : World) : Prop where
  now : w'.now = w.now
  tables : w'.db.tables = w.db.tables.endSessions (w.db.tables.overdue grace w.now)
  set : w'.set =
    w.set.eraseAll (((w.db.tables.overdue grace w.now).filter (removable env)).map SessionRow.pair)

section Cleaned

variable {w' : World}

/-- After a pass, the active rows are those it did not find overdue. -/
theorem Cleaned.active (h : Cleaned env grace w w') (s : SessionRow) :
    w'.Active s ↔ w.Active s ∧ s ∉ w.db.tables.overdue grace w.now := by
  show w'.db.tables.Active s ↔ _
  rw [h.tables]
  exact Tables.active_endSessions_of_active w.db.schema (fun g hg => (Tables.mem_overdue.1 hg).1) s

/-- The pair of a session that is not overdue keeps its entry when there is one session per device. -/
theorem Cleaned.set_of_not_mem (h : Cleaned env grace w w') (hu : w.db.tables.OnePerMac) {s : SessionRow}
    (hs : w.Active s) (hn : s ∉ w.db.tables.overdue grace w.now) : w'.set s.pair = w.set s.pair := by
  rw [h.set]
  apply TimedSet.eraseAll_of_not_mem _
  intro hm
  obtain ⟨g, hg, hp⟩ := List.mem_map.1 hm
  have hov := (List.mem_filter.1 hg).1
  rw [hu.eq (Tables.mem_overdue.1 hov).1 hs (congrArg Prod.fst hp)] at hov
  exact hn hov

/-- A pass only takes elements out of the set. -/
theorem Cleaned.mem_of_mem (h : Cleaned env grace w w') {p : String × String} (hm : w'.set.Mem w'.now p) :
    w.set.Mem w.now p := by
  rw [h.now, h.set] at hm
  obtain ⟨e, he, hlt⟩ := hm
  by_cases hp : p ∈ ((w.db.tables.overdue grace w.now).filter (removable env)).map SessionRow.pair
  · rw [TimedSet.eraseAll_of_mem _ hp] at he; cases he
  · rw [TimedSet.eraseAll_of_not_mem _ hp] at he; exact ⟨e, he, hlt⟩

end Cleaned

theorem cleaned_foldl (gone : List SessionRow) : (gone.foldl (World.retire env) w).now = w.now ∧
    (gone.foldl (World.retire env) w).db.tables = w.db.tables.endSessions gone ∧
    (gone.foldl (World.retire env) w).set = w.set.eraseAll ((gone.filter (removable env)).map SessionRow.pair) := by
  induction gone generalizing w with
  | nil => exact ⟨rfl, rfl, rfl⟩
  | cons g gone ih =>
    obtain ⟨h1, h2, h3⟩ := ih (w := w.retire env g)
    refine ⟨h1, h2, h3.trans ?_⟩
    show TimedSet.eraseAll (if removable env g then w.set.erase g.pair else w.set) _ = _
    cases hg : removable env g <;> simp [hg, TimedSet.eraseAll]

/-- The clock stands still during a pass, so a pass is a fold over the rows it ends. -/
theorem run_cleanupPass (hsql : ∀ q, env (.sql q) = none) (grace : Int) (w : World) :
    Cleaned env grace w ((cleanupPass grace).run (failing env) w).2 := by
  have body : ∀ (l : List Session) (w : World),
      l.foldl (fun w k => ((cleanupSession grace k).run (failing env) w).2) w =
        ((l.map (·.toSessionRow)).filter (·.endedBy grace w.now)).foldl (World.retire env) w := by
    intro l
    induction l with
    | nil => exact fun _ => rfl
    | cons k l ih =>
      intro w
      rw [List.foldl_cons, run_cleanupSession hsql, ih, List.map_cons, List.filter_cons]
      cases k.endedBy grace w.now <;> rfl
  unfold cleanupPass
  rw [Prog.run_bind, run_run, exec_query w (hsql _) rfl]
  simp only
  rw [Prog.run_forM, body]
  have rows : (w.db.tables.sessionActive.map (·.toSessionRow)).filter (·.endedBy grace w.now) =
      w.db.tables.overdue grace w.now := by
    unfold Tables.sessionActive Tables.overdue
    rw [Tables.map_sessionsWhere w.db.schema, List.filter_filter]
    simp only [Bool.and_comm]
  rw [rows]
  exact ⟨(cleaned_foldl _).1, (cleaned_foldl _).2.1, (cleaned_foldl _).2.2⟩

/-! ## The restore at startup -/

/-- The active rows the restore at `now` ends. -/
def Tables.lapsed (t : Tables) (grace now : Int) : List SessionRow :=
  t.session.filter fun s => s.isActive && decide (s.remainingAt now ≤ grace)

theorem Tables.mem_lapsed {t : Tables} {now : Int} {s : SessionRow} :
    s ∈ t.lapsed grace now ↔ t.Active s ∧ s.remainingAt now ≤ grace := by
  unfold lapsed Active
  rw [List.mem_filter, Bool.and_eq_true, and_assoc, decide_eq_true_iff]

/-- The active rows the restore at `now` admits again, and until when. -/
def Tables.restored (t : Tables) (grace now : Int) : List ((String × String) × Int) :=
  (t.session.filter fun s => s.isActive && (decide (grace < s.remainingAt now) && isValidMac s.macAddress)).map
    fun s => (s.pair, now + asU64 (s.remainingAt now) * nanosPerSec)

structure Restored (grace : Int) (w w' : World) : Prop where
  now : w'.now = w.now
  tables : w'.db.tables = w.db.tables.endSessions (w.db.tables.lapsed grace w.now)
  set : w'.set = w.set.insertAll (w.db.tables.restored grace w.now)

def World.authorize (w : World) (s : SessionRow) : World :=
  { w with set := w.set.insert s.pair (w.now + asU64 (s.remainingAt w.now) * nanosPerSec) }

/-- What one round of the loop does. -/
def World.restore (grace : Int) (w : World) (s : SessionRow) : World :=
  if s.remainingAt w.now ≤ grace then w.endSession s else if isValidMac s.macAddress then w.authorize s else w

theorem run_restoreSession (k : Session) :
    ((restoreSession grace k).run noFault w).2 = w.restore grace k.toSessionRow := by
  unfold restoreSession World.restore
  rw [Prog.run_bind, run_remainingSeconds]
  simp only
  by_cases hr : k.remainingAt w.now ≤ grace
  · rw [if_pos hr, if_neg (by omega)]
    exact run_endSession (fun _ => rfl) k
  · rw [if_neg hr, if_pos (by omega), Prog.run_bind, run_run]
    by_cases hm : validateMac k.macAddress = .ok ()
    · rw [if_pos (isValidMac_iff.2 hm), exec_authorizeClient _ w _ hm _ rfl]; rfl
    · obtain ⟨e, he⟩ := exec_authorizeClient_invalid (fun _ => none) w k.ipAddress hm
        (asU64 (k.remainingAt w.now))
      rw [if_neg (fun h => hm (isValidMac_iff.1 h)), he]; rfl

theorem restored_foldl (grace : Int) (w : World) (l : List SessionRow) : (l.foldl (World.restore grace) w).now = w.now ∧
    (l.foldl (World.restore grace) w).db.tables =
      w.db.tables.endSessions (l.filter fun s => decide (s.remainingAt w.now ≤ grace)) ∧
    (l.foldl (World.restore grace) w).set =
      w.set.insertAll ((l.filter fun s => decide (grace < s.remainingAt w.now) && isValidMac s.macAddress).map
        fun s => (s.pair, w.now + asU64 (s.remainingAt w.now) * nanosPerSec)) := by
  induction l generalizing w with
  | nil => exact ⟨rfl, rfl, rfl⟩
  | cons s l ih =>
    have hnow : (w.restore grace s).now = w.now := by
      unfold World.restore
      split
      · rfl
      · split <;> rfl
    obtain ⟨h1, h2, h3⟩ := ih (w.restore grace s)
    rw [hnow] at h1 h2 h3
    rw [List.foldl_cons, h1, h2, h3]
    refine ⟨rfl, ?_, ?_⟩
    · by_cases hr : s.remainingAt w.now ≤ grace
      · simp [World.restore, hr, Tables.endSessions]
      · cases hm : isValidMac s.macAddress <;> simp [World.restore, hr, hm, World.authorize]
    · by_cases hr : s.remainingAt w.now ≤ grace
      · simp [World.restore, hr, show ¬ grace < s.remainingAt w.now by omega]
      · cases hm : isValidMac s.macAddress <;>
          simp [World.restore, hr, hm, World.authorize, show grace < s.remainingAt w.now by omega, TimedSet.insertAll]

theorem exec_restoreSessions (grace : Int) (w : World) :
    ∃ w', Fallible.exec noFault (restoreSessions grace) w = (.ok ⟨⟩, w') ∧ Restored grace w w' := by
  unfold restoreSessions
  rw [Fallible.exec_bind_ok _ (exec_query w rfl rfl), exec_lift]
  refine ⟨_, rfl, ?_⟩
  rw [Prog.run_forM]
  have body : ∀ (l : List Session) (w : World), l.foldl (fun w k => ((restoreSession grace k).run noFault w).2) w =
      (l.map (·.toSessionRow)).foldl (World.restore grace) w := by
    intro l
    induction l with
    | nil => exact fun _ => rfl
    | cons k l ih => intro w; rw [List.foldl_cons, run_restoreSession, ih]; rfl
  rw [body]
  have rows : w.db.tables.sessionActive.map (·.toSessionRow) = w.db.tables.session.filter (·.isActive) :=
    Tables.map_sessionsWhere w.db.schema _
  obtain ⟨h1, h2, h3⟩ := restored_foldl grace w (w.db.tables.session.filter (·.isActive))
  rw [List.filter_filter] at h2 h3
  rw [rows]
  refine ⟨h1, ?_, ?_⟩
  · rw [h2]; unfold Tables.lapsed; simp only [Bool.and_comm]
  · rw [h3]; unfold Tables.restored; simp only [Bool.and_comm, Bool.and_left_comm]

end Didicafe
