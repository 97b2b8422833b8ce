/-
The CSRF tokens of the portal and the login form (`services/csrf.rs`). A call is a program over the locked sections of
the store, and so can overlap with others between them. Lower-casing a key is a parameter.
-/
import Didicafe.Model.AdminSession

namespace Didicafe

open Effect

/-- The lifetime of a token, 600 seconds. -/
def csrfTokenTtl : Nat := fromSecs 600

structure CsrfEntry where
  token : String
  createdAt : Nat
deriving DecidableEq

abbrev PortalCsrfStore := HashMap String CsrfEntry

namespace PortalCsrfStore

/-- The entry of a key, if its age is below the lifetime. -/
def live (s : PortalCsrfStore) (clock : Nat) (key : String) : Option CsrfEntry :=
  (s.lookup key).filter fun e => clock - e.createdAt < csrfTokenTtl

/-- The locked section of `generate`: the entries that have expired at `now` are pruned. -/
def put (s : PortalCsrfStore) (key token : String) (now : Nat) : PortalCsrfStore :=
  (s.retain fun _ e => if now - e.createdAt < csrfTokenTtl then some e else none).insert key ⟨token, now⟩

/-- The comparison of `validate` with the entry it has removed. -/
def accepts (clock : Nat) (submitted : String) (e : CsrfEntry) : Bool :=
  if clock - e.createdAt > csrfTokenTtl then false else e.token == submitted

end PortalCsrfStore

/-- The locked sections, and the reading of the clock in front of that of `generate`. -/
inductive CsrfOp where
  | now
  | read (key : String)
  | write (key token : String) (now : Nat)
  | set (key token : String)
  | validate (key submitted : String)
deriving DecidableEq

abbrev CsrfOp.Out : CsrfOp → Type
  | .now => Nat
  | .read _ => Option String
  | .write .. | .set .. => Unit
  | .validate .. => Bool

/-- The monotonic clock and the store. -/
structure CsrfDesk where
  clock : Nat
  tokens : PortalCsrfStore

/-- One operation; all but `write` read the clock under the lock. -/
def CsrfDesk.exec : Handler CsrfOp CsrfOp.Out CsrfDesk
  | .now, d => (d.clock, d)
  | .read key, d => ((d.tokens.live d.clock key).map (·.token), d)
  | .write key token now, d => ((), { d with tokens := d.tokens.put key token now })
  | .set key token, d => ((), { d with tokens := d.tokens.insert key ⟨token, d.clock⟩ })
  | .validate key submitted, d =>
    ((d.tokens.lookup key).any (PortalCsrfStore.accepts d.clock submitted), { d with tokens := d.tokens.erase key })

/-! ## Calls -/

/-- What a call returns. -/
inductive CsrfAnswer where
  | token (token : String)
  | done
  | valid (ok : Bool)
deriving DecidableEq

abbrev CsrfProg := Prog CsrfOp CsrfOp.Out CsrfAnswer

section Calls

variable (lower : String → String)

def csrfGenerate (mac : String) (draws : Nat → Fin sessionCharset.length) : CsrfProg :=
  let token := generateSessionToken 32 draws
  .call .now fun now => .call (.write (lower mac) token now) fun _ => .done (.token token)

def csrfGetOrGenerate (mac : String) (draws : Nat → Fin sessionCharset.length) : CsrfProg :=
  .call (.read (lower mac)) fun
    | some token => .done (.token token)
    | none => csrfGenerate lower mac draws

def csrfSet (mac token : String) : CsrfProg := .call (.set (lower mac) token) fun _ => .done .done

def csrfValidate (mac submitted : String) : CsrfProg :=
  .call (.validate (lower mac) submitted) fun ok => .done (.valid ok)

end Calls

/-- A call, with the draws of the token it generates if it does. -/
inductive CsrfCall where
  | getOrGenerate (mac : String) (draws : Nat → Fin sessionCharset.length)
  | generate (mac : String) (draws : Nat → Fin sessionCharset.length)
  | set (mac token : String)
  | validate (mac submitted : String)

namespace CsrfCall

variable (lower : String → String)

def program : CsrfCall → CsrfProg
  | .getOrGenerate mac draws => csrfGetOrGenerate lower mac draws
  | .generate mac draws => csrfGenerate lower mac draws
  | .set mac token => csrfSet lower mac token
  | .validate mac submitted => csrfValidate lower mac submitted

/-- The key a call is about. -/
def key : CsrfCall → String
  | .getOrGenerate mac _ | .generate mac _ | .set mac _ | .validate mac _ => lower mac

end CsrfCall

end Didicafe
