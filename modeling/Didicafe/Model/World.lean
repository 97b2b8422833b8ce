/-
The state the daemon acts on, and its atomic operations: reading the clock, one `nft` command, one
SQL statement. Commands and statements may fail, and then leave everything as it was. The services
are programs over these operations.
-/
import Didicafe.Lib.Effect
import Didicafe.Lib.TimedSet
import Didicafe.Model.Db.Tables

namespace Didicafe

open Effect

/-- The `nft` commands of the controller, on elements of its set of client addresses. -/
inductive NftCmd where
  | addElement (mac ip : String) (timeoutSecs : Nat)
  | deleteElement (mac ip : String)
deriving DecidableEq

/-- The nftables set of authorized (MAC, IP) pairs, each with the instant it times out at. -/
abbrev AuthSet := TimedSet (String × String) Int

/-- A command that `nft` carries out: adding an element sets its timeout, deleting one that is not
in the set is an error. -/
def NftCmd.exec (now : Int) (set : AuthSet) : NftCmd → Except Err Unit × AuthSet
  | .addElement mac ip timeoutSecs => (.ok (), set.insert (mac, ip) (now + timeoutSecs * nanosPerSec))
  | .deleteElement mac ip =>
    (if set.Mem now (mac, ip) then .ok ()
      else .error (.anyhow "nft command failed: No such file or directory"), set.erase (mac, ip))

/-- The clock, in nanoseconds, the database and the firewall set. -/
structure World where
  now : Int
  db : Database
  set : AuthSet

inductive Op where
  | utcNow
  | nft (cmd : NftCmd)
  | sql (q : Sql)
deriving DecidableEq

abbrev Op.Out : Op → Type
  | .utcNow => Int
  | .nft _ => Except Err Unit
  | .sql q => Except Err q.Out

/-- One operation; `fault` is the error with which a command or statement fails, if it does. -/
def World.exec (fault : Option Err) : Handler Op Op.Out World
  | .utcNow, w => (w.now, w)
  | .nft cmd, w =>
    match fault with
    | some e => (.error e, w)
    | none => ((cmd.exec w.now w.set).1, { w with set := (cmd.exec w.now w.set).2 })
  | .sql q, w =>
    match fault with
    | some e => (.error e, w)
    | none => ((w.db.exec w.now q).1, { w with db := (w.db.exec w.now q).2 })

/-- An operation that is made to fail leaves everything as it was. -/
theorem World.exec_some (e : Err) (op : Op) (w : World) : (World.exec (some e) op w).2 = w := by cases op <;> rfl

/-- The operations when the environment makes some of them fail. -/
def failing (env : Op → Option Err) : Handler Op Op.Out World := fun op w => World.exec (env op) op w

/-- The operations when none is made to fail. -/
abbrev noFault : Handler Op Op.Out World := failing fun _ => none

/-- A service that returns a `Result`. -/
abbrev App := Fallible Err Op Op.Out

def utcNow : Prog Op Op.Out Int := Prog.perform Op.utcNow

def runNft (cmd : NftCmd) : App Unit := ExceptT.mk (Prog.perform (Op.nft cmd))

def sql (q : Sql) : App q.Out := ExceptT.mk (Prog.perform (Op.sql q))

namespace App

variable {α : Type}

/-- A step that only computes a `Result`. -/
def ofExcept (x : Except Err α) : App α := ExceptT.mk (pure x)

/-- A call whose `Result` the caller looks at itself. -/
def attempt (x : App α) : App (Except Err α) := ExceptT.lift x.run

/-- A call with `with_context` on its `Result`. -/
def context (text : String) (x : App α) : App α := ExceptT.mk (x.run >>= fun r => pure (withContext text r))

end App

/-! ## Single operations -/

section Exec

variable {α : Type} (h : Handler Op Op.Out World) (w : World)

@[simp] theorem exec_ofExcept (x : Except Err α) : Fallible.exec h (App.ofExcept x) w = (x, w) := rfl

@[simp] theorem exec_lift (p : Prog Op Op.Out α) :
    Fallible.exec h (ExceptT.lift p : App α) w = (.ok (p.run h w).1, (p.run h w).2) := by
  show Prog.run h (p >>= fun a => pure (Except.ok a)) w = _
  rw [Prog.run_bind]; rfl

@[simp] theorem exec_attempt (x : App α) :
    Fallible.exec h x.attempt w = (.ok (Fallible.exec h x w).1, (Fallible.exec h x w).2) :=
  exec_lift h w x.run

@[simp] theorem exec_context (text : String) (x : App α) :
    Fallible.exec h (x.context text) w = (withContext text (Fallible.exec h x w).1, (Fallible.exec h x w).2) := by
  show Prog.run h (x.run >>= fun r => pure (withContext text r)) w = _
  rw [Prog.run_bind]; rfl

@[simp] theorem exec_runNft (cmd : NftCmd) : Fallible.exec h (runNft cmd) w = h (.nft cmd) w := rfl

@[simp] theorem exec_sql (q : Sql) : Fallible.exec h (sql q) w = h (.sql q) w := rfl

@[simp] theorem exec_utcNow (env : Op → Option Err) :
    Fallible.exec (failing env) (liftM utcNow : App Int) w = (.ok w.now, w) := rfl

/-- A statement that succeeds was not made to fail. -/
theorem exec_sql_ok {env : Op → Option Err} {q : Sql} {r : q.Out} {w' : World}
    (hx : Fallible.exec (failing env) (sql q) w = (.ok r, w')) :
    (q.run w.now w.db.tables).1 = .ok r ∧ w' = { w with db := (w.db.exec w.now q).2 } := by
  rw [exec_sql] at hx
  simp only [failing, World.exec] at hx
  split at hx
  · cases hx
  · obtain ⟨hr, rfl⟩ := Prod.mk.inj hx
    exact ⟨hr, rfl⟩

/-- A statement that is not made to fail. -/
theorem exec_sql_of_none {env : Op → Option Err} {q : Sql} (he : env (.sql q) = none) :
    Fallible.exec (failing env) (sql q) w = ((q.run w.now w.db.tables).1, { w with db := (w.db.exec w.now q).2 }) := by
  rw [exec_sql]
  simp only [failing, World.exec, he]; rfl

/-- A statement that is made to fail. -/
theorem exec_sql_of_some {env : Op → Option Err} {q : Sql} {e : Err} (he : env (.sql q) = some e) :
    Fallible.exec (failing env) (sql q) w = (.error e, w) := by
  rw [exec_sql]
  simp only [failing, World.exec, he]

/-- A query: a statement that leaves the tables as they are. -/
theorem exec_query {env : Op → Option Err} {q : Sql} {r : Except Err q.Out} (he : env (.sql q) = none)
    (hq : q.run w.now w.db.tables = (r, w.db.tables)) : Fallible.exec (failing env) (sql q) w = (r, w) := by
  have hdb : (w.db.exec w.now q).2 = w.db := by
    unfold Database.exec
    obtain ⟨now, ⟨t, hs⟩, set⟩ := w
    simp only at hq ⊢
    simp only [hq]
  rw [exec_sql_of_none w he, hq, hdb]

end Exec

end Didicafe
