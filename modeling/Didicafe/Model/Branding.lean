/-
The branding of the pages (`config.rs`): the checks of the portal section, and the style sheet that is made of its theme
colour.
-/
import Didicafe.Model.Admin
import Didicafe.Model.Net

namespace Didicafe

/-! ## The portal checks of `Config::validate` -/

def isDomainChar (c : Char) : Bool := c.isAlphanum || c == '.' || c == '-'

def PortalSection.validate (p : PortalSection) : Except Err Unit := do
  ensure (p.domain ≠ "") "portal.domain must not be empty"
  ensure (p.domain.toList.all isDomainChar = true)
    s!"portal.domain must contain only alphanumeric characters, dots, and hyphens, got '{p.domain}'"
  ensure (p.adminDomain ≠ "") "portal.admin_domain must not be empty"
  ensure (p.adminDomain.toList.all isDomainChar = true)
    s!"portal.admin_domain must contain only alphanumeric characters, dots, and hyphens, got '{p.adminDomain}'"
  ensure (p.domain ≠ p.adminDomain)
    s!"portal.admin_domain ('{p.adminDomain}') must differ from portal.domain ('{p.domain}')"
  ensure (p.cafeName ≠ "") "portal.cafe_name must not be empty"
  ensure (p.cafeName.utf8ByteSize ≤ 100) "portal.cafe_name must be 100 characters or less"
  ensure (isValidHexColor p.themeColor = true)
    s!"portal.theme_color must be a valid hex color (#RGB or #RRGGBB), got '{p.themeColor}'"

/-! ## Colours -/

structure Rgb where
  r : Nat
  g : Nat
  b : Nat
deriving DecidableEq, Repr

/-- `u8::from_str_radix(s, 16)`: hexadecimal digits, after an optional plus sign. -/
def fromStrRadix16 (s : List Char) : Option Nat := do
  let digits := if s.head? = some '+' ∧ s.tail ≠ [] then s.tail else s
  guard (digits ≠ [])
  let n ← ofDigits 16 digits
  guard (n ≤ 255)
  some n

/-- `&s[..n]`, none where it panics. -/
def sliceTo (n : Nat) : List Char → Option (List Char)
  | [] => if n = 0 then some [] else none
  | c :: s => if n = 0 then some [] else if c.utf8Size ≤ n then (sliceTo (n - c.utf8Size) s).map (c :: ·) else none

/-- `u8::from_str_radix(&s[i..j], 16).unwrap_or(0)`. -/
def channel (s : List Char) (i j : Nat) : Except Err Nat :=
  match (sliceFrom i s).bind (sliceTo (j - i)) with
  | some digits => .ok ((fromStrRadix16 digits).getD 0)
  | none => .error (.panic "byte index is not a char boundary")

/-- `parse_hex_rgb`. -/
def parseHexRgb (hex : String) : Except Err Rgb :=
  let hex := if hex.toList.head? = some '#' then hex.toList.tail else hex.toList
  if byteLen hex = 3 then do
    let r ← channel hex 0 1
    let g ← channel hex 1 2
    let b ← channel hex 2 3
    return ⟨r * 17, g * 17, b * 17⟩
  else if byteLen hex = 6 then do
    let r ← channel hex 0 2
    let g ← channel hex 2 4
    let b ← channel hex 4 6
    return ⟨r, g, b⟩
  else .ok ⟨180, 83, 9⟩

/-- `{:02x}`. -/
def hex2 (n : Nat) : List Char := List.leftpad 2 '0' (Nat.toDigits 16 n)

/-- `#{r:02x}{g:02x}{b:02x}`. -/
def Rgb.text (c : Rgb) : String := String.ofList ('#' :: hex2 c.r ++ hex2 c.g ++ hex2 c.b)

/-- What `darken` does to a channel, for a factor in hundredths. The product of doubles that the code rounds is exact
where it lies halfway between two integers. -/
def darkenChannel (hundredths x : Nat) : Nat := (x * (100 - hundredths) + 50) / 100

/-- What `lighten` does to a channel. -/
def lightenChannel (hundredths x : Nat) : Nat := x + ((255 - x) * hundredths + 50) / 100

def Rgb.map (f : Nat → Nat) (c : Rgb) : Rgb := ⟨f c.r, f c.g, f c.b⟩

def darken (hundredths : Nat) (c : Rgb) : Rgb := c.map (darkenChannel hundredths)

def lighten (hundredths : Nat) (c : Rgb) : Rgb := c.map (lightenChannel hundredths)

/-- The style sheet of `generate_theme_css` for a colour. -/
def themeCss (c : Rgb) : String :=
  ":root \x7b --c-primary: " ++ c.text ++ "; --c-primary-hover: " ++ (darken 15 c).text ++ "; --c-primary-light: " ++
    (lighten 85 c).text ++ "; --c-primary-50: " ++ (lighten 93 c).text ++ "; \x7d"

def PortalSection.generateThemeCss (p : PortalSection) : Except Err String := (parseHexRgb p.themeColor).map themeCss

end Didicafe
