/-
Token codes: the token part of the configuration, `generate_tokens` and `validate_token_format` (`services/token.rs`),
and what the portal does to a submitted code first.
-/
import Didicafe.Model.Config
import Didicafe.Model.Services
import Didicafe.Model.Text

namespace Didicafe

structure TokenConfig where
  codePrefix : String
  charset : String
  length : Nat
deriving DecidableEq, Repr

/-- The token checks of `Config::validate`. -/
def TokenConfig.validate (c : TokenConfig) : Except Err Unit := do
  ensure (c.charset ≠ "") "token.charset must not be empty"
  ensure (6 ≤ c.length ∧ c.length % 2 = 0) s!"token.length must be >= 6 and even, got {c.length}"
  ensure (c.codePrefix ≠ "") "token.prefix must not be empty"

/-- The submitted code as it is looked up: `form.token.trim().to_uppercase()`. -/
def normalizeCode (u : CaseTable) (token : String) : String := String.ofList (u.toUppercase (trim token.toList))

/-- A panic is an error of the call, a rejected code an error of its result. -/
def validateTokenFormat (c : TokenConfig) (code : String) : Except Err (Except String Unit) :=
  let invalid : Except Err (Except String Unit) := .ok (.error "Invalid token format.")
  let expectedPrefix := c.codePrefix.toList ++ ['-']
  if ¬ expectedPrefix <+: code.toList then invalid
  else
    match sliceFrom (byteLen expectedPrefix) code.toList with
    | none => .error (.panic "byte index is not a char boundary")
    | some body =>
      let half := c.length / 2
      let expectedBodyLen := half + 1 + half
      if byteLen body ≠ expectedBodyLen then invalid
      else
        match (utf8 body)[half]? with
        | none => .error (.panic "index out of bounds")
        | some separator =>
          if separator ≠ '-'.toUInt8 then invalid
          else if ∀ x ∈ body.zipIdx, x.2 = half ∨ x.1 ∈ c.charset.toList then .ok (.ok ())
          else invalid

/-- The random draws of one code: the index into the character set at each position. -/
abbrev Draws (c : TokenConfig) := Nat → Fin c.charset.toList.length

/-- The code of given draws. -/
def generateCode (c : TokenConfig) (draws : Draws c) : String :=
  let half := c.length / 2
  let part1 := (List.range half).map fun i => c.charset.toList.get (draws i)
  let part2 := (List.range half).map fun i => c.charset.toList.get (draws (half + i))
  String.ofList (c.codePrefix.toList ++ '-' :: part1 ++ '-' :: part2)

/-- `generate_tokens`, for the draws of its codes. -/
def generateTokens (c : TokenConfig) (planId : Int) (count : Nat) (name : Option String) (draws : Nat → Draws c) :
    App (List String) := do
  let codes := (List.range count).map fun k => generateCode c (draws k)
  codes.forM fun code => do
    let _ ← sql (.createToken code name planId)
  return codes

end Didicafe
