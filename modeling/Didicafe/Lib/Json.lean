/-
JSON texts (RFC 8259): values, and the parser of the grammar. A text with an escaped surrogate that is not half of a
pair names no Unicode text and is not read.
-/
import Mathlib.Tactic.Common

namespace Didicafe

/-- A number is kept as its text. -/
inductive Json where
  | null
  | bool (b : Bool)
  | number (text : List Char)
  | string (s : List Char)
  | array (values : List Json)
  | object (members : List (List Char × Json))

namespace Json

/-! ## Strings -/

def hexDigit (c : Char) : Option Nat :=
  if '0' ≤ c ∧ c ≤ '9' then some (c.toNat - '0'.toNat)
  else if 'a' ≤ c ∧ c ≤ 'f' then some (c.toNat - 'a'.toNat + 10)
  else if 'A' ≤ c ∧ c ≤ 'F' then some (c.toNat - 'A'.toNat + 10)
  else none

def hex4 (a b c d : Char) : Option Nat := do
  return ((← hexDigit a) * 16 + (← hexDigit b)) * 256 + (← hexDigit c) * 16 + (← hexDigit d)

/-- The character that a backslash and one other character stand for. -/
def escaped (e : Char) : Option Char :=
  match e with
  | '"' => some '"'
  | '\\' => some '\\'
  | '/' => some '/'
  | 'b' => some '\x08'
  | 'f' => some '\x0c'
  | 'n' => some '\n'
  | 'r' => some '\r'
  | 't' => some '\t'
  | _ => none

/-- A character that may stand for itself in a string, when it is neither the quote nor the backslash. -/
def Unescaped (c : Char) : Prop := 0x20 ≤ c.toNat

instance (c : Char) : Decidable (Unescaped c) := by unfold Unescaped; infer_instance

def more (c : Char) (r : Option (List Char × List Char)) : Option (List Char × List Char) :=
  r.map fun x => (c :: x.1, x.2)

/-- The characters of a string up to its closing quote, and what is behind it. -/
def chars : List Char → Option (List Char × List Char)
  | [] => none
  | c :: s =>
    if c = '"' then some ([], s)
    else if c = '\\' then
      match s with
      | 'u' :: a :: b :: c :: d :: s =>
        match hex4 a b c d with
        | none => none
        | some n =>
          if 0xd800 ≤ n ∧ n < 0xdc00 then
            match s with
            | '\\' :: 'u' :: e :: f :: g :: h :: s =>
              match hex4 e f g h with
              | none => none
              | some m =>
                if 0xdc00 ≤ m ∧ m < 0xe000 then
                  more (Char.ofNat (0x10000 + (n - 0xd800) * 0x400 + (m - 0xdc00))) (chars s)
                else none
            | _ => none
          else if 0xdc00 ≤ n ∧ n < 0xe000 then none
          else more (Char.ofNat n) (chars s)
      | e :: s => (escaped e).bind fun c => more c (chars s)
      | [] => none
    else if Unescaped c then more c (chars s)
    else none

/-! ## Numbers -/

/-- At least one digit. -/
def digits (s : List Char) : Option (List Char × List Char) :=
  let ds := s.takeWhile Char.isDigit
  if ds = [] then none else some (ds, s.dropWhile Char.isDigit)

/-- No leading zeros. -/
def int (s : List Char) : Option (List Char × List Char) :=
  match s with
  | '0' :: s => some (['0'], s)
  | s => digits s

def frac (s : List Char) : Option (List Char × List Char) :=
  match s with
  | '.' :: s => (digits s).map fun x => ('.' :: x.1, x.2)
  | s => some ([], s)

def exp (s : List Char) : Option (List Char × List Char) :=
  match s with
  | [] => some ([], [])
  | e :: s =>
    if e = 'e' ∨ e = 'E' then
      match s with
      | [] => none
      | sign :: s =>
        if sign = '+' ∨ sign = '-' then (digits s).map fun x => (e :: sign :: x.1, x.2)
        else (digits (sign :: s)).map fun x => (e :: x.1, x.2)
    else some ([], e :: s)

def numeral (s : List Char) : Option (List Char × List Char) := do
  let (sign, s) := if s.head? = some '-' then (['-'], s.tail) else ([], s)
  let (i, s) ← int s
  let (f, s) ← frac s
  let (e, s) ← exp s
  some (sign ++ i ++ f ++ e, s)

/-! ## Values -/

def skipWs (s : List Char) : List Char := s.dropWhile (· ∈ [' ', '\t', '\n', '\r'])

def literal (word : List Char) (v : Json) (s : List Char) : Option (Json × List Char) :=
  if word <+: s then some (v, s.drop word.length) else none

mutual

/-- A value and what is behind it. The fuel is used up by the nesting and the length of arrays and objects. -/
def value : Nat → List Char → Option (Json × List Char)
  | 0, _ => none
  | fuel + 1, s =>
    match skipWs s with
    | '\x7b' :: s =>
      match skipWs s with
      | '\x7d' :: s => some (.object [], s)
      | s => (members fuel s).map fun x => (.object x.1, x.2)
    | '[' :: s =>
      match skipWs s with
      | ']' :: s => some (.array [], s)
      | s => (elements fuel s).map fun x => (.array x.1, x.2)
    | '"' :: s => (chars s).map fun x => (.string x.1, x.2)
    | s =>
      ((literal "true".toList (.bool true) s).or (literal "false".toList (.bool false) s)).or
        ((literal "null".toList .null s).or ((numeral s).map fun x => (.number x.1, x.2)))

/-- The members of an object from one member on, and what is behind its brace. -/
def members : Nat → List Char → Option (List (List Char × Json) × List Char)
  | 0, _ => none
  | fuel + 1, s =>
    match skipWs s with
    | '"' :: s =>
      (chars s).bind fun (key, s) =>
        match skipWs s with
        | ':' :: s =>
          (value fuel s).bind fun (v, s) =>
            match skipWs s with
            | ',' :: s => (members fuel s).map fun x => ((key, v) :: x.1, x.2)
            | '\x7d' :: s => some ([(key, v)], s)
            | _ => none
        | _ => none
    | _ => none

/-- The values of an array from one value on, and what is behind its bracket. -/
def elements : Nat → List Char → Option (List Json × List Char)
  | 0, _ => none
  | fuel + 1, s =>
    (value fuel s).bind fun (v, s) =>
      match skipWs s with
      | ',' :: s => (elements fuel s).map fun x => (v :: x.1, x.2)
      | ']' :: s => some ([v], s)
      | _ => none

end

/-- A whole text. Of two nested calls one is behind another character, so the fuel is enough. -/
def parse (s : String) : Option Json :=
  (value (2 * s.length + 1) s.toList).bind fun (v, s) => if skipWs s = [] then some v else none

/-! ## Reading what is written -/

variable {fuel : Nat} {c e : Char} {s t rest key v : List Char}

/-- The first character decides, unless it is a backslash. -/
theorem chars_cons (h : c ≠ '\\') :
    chars (c :: s) = if c = '"' then some ([], s) else if Unescaped c then more c (chars s) else none := by
  rw [chars.eq_def]
  simp only [h, if_false]

@[simp] theorem chars_quote (s : List Char) : chars ('"' :: s) = some ([], s) := by
  rw [chars_cons (by decide), if_pos rfl]

/-- A character behind a backslash. -/
theorem chars_escaped (h : escaped e = some c) : chars ('\\' :: e :: s) = more c (chars s) := by
  have hu : e ≠ 'u' := by
    rintro rfl
    cases h
  rw [chars.eq_def]
  simp only [Char.reduceEq, if_false, if_true]
  split
  · next heq => exact absurd (List.cons.inj heq).1 hu
  · next heq =>
    obtain ⟨rfl, rfl⟩ := List.cons.inj heq
    rw [h, Option.bind_some]
  · next heq => cases heq

theorem chars_unescaped (hquote : c ≠ '"') (hbackslash : c ≠ '\\') (h : Unescaped c) :
    chars (c :: s) = more c (chars s) := by
  rw [chars_cons hbackslash, if_neg hquote, if_pos h]

/-- A control character ends the reading. -/
theorem chars_control (h : ¬ Unescaped c) : chars (c :: s) = none := by
  have hquote : c ≠ '"' := by
    rintro rfl
    exact h (by decide)
  have hbackslash : c ≠ '\\' := by
    rintro rfl
    exact h (by decide)
  rw [chars_cons hbackslash, if_neg hquote, if_neg h]

theorem skipWs_cons (h : c ∉ [' ', '\t', '\n', '\r']) : skipWs (c :: s) = c :: s :=
  List.dropWhile_cons_of_neg (by simpa using h)

theorem value_string (s : List Char) :
    value (fuel + 1) ('"' :: s) = (chars s).map fun x => (.string x.1, x.2) := by
  rw [value, skipWs_cons (by decide)]
  rfl

/-- An object with a member. -/
theorem value_object (s : List Char) :
    value (fuel + 1) ('\x7b' :: '"' :: s) = (members fuel ('"' :: s)).map fun x => (.object x.1, x.2) := by
  rw [value, skipWs_cons (by decide)]
  simp only [skipWs_cons (show '"' ∉ [' ', '\t', '\n', '\r'] by decide)]
  rfl

/-- A member with a string: the last one. -/
theorem members_last (hkey : chars s = some (key, ':' :: '"' :: t)) (hval : chars t = some (v, '\x7d' :: rest)) :
    members (fuel + 2) ('"' :: s) = some ([(key, .string v)], rest) := by
  rw [members, skipWs_cons (by decide)]
  simp only [hkey, Option.bind_some, skipWs_cons (show ':' ∉ [' ', '\t', '\n', '\r'] by decide), value_string, hval,
    Option.map_some, skipWs_cons (show '\x7d' ∉ [' ', '\t', '\n', '\r'] by decide)]

/-- A member with a string before others. -/
theorem members_more (hkey : chars s = some (key, ':' :: '"' :: t)) (hval : chars t = some (v, ',' :: rest)) :
    members (fuel + 2) ('"' :: s) = (members (fuel + 1) rest).map fun x => ((key, .string v) :: x.1, x.2) := by
  rw [members, skipWs_cons (by decide)]
  simp only [hkey, Option.bind_some, skipWs_cons (show ':' ∉ [' ', '\t', '\n', '\r'] by decide), value_string, hval,
    Option.map_some, skipWs_cons (show ',' ∉ [' ', '\t', '\n', '\r'] by decide)]

/-- A member with a string that is not read. -/
theorem members_none (hkey : chars s = some (key, ':' :: '"' :: t)) (hval : chars t = none) :
    members (fuel + 2) ('"' :: s) = none := by
  rw [members, skipWs_cons (by decide)]
  simp only [hkey, Option.bind_some, skipWs_cons (show ':' ∉ [' ', '\t', '\n', '\r'] by decide), value_string, hval,
    Option.map_none, Option.bind_none]

end Json

end Didicafe
