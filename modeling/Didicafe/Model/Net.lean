/-
IP addresses and CIDR networks: the parser of std's `IpAddr`, which both families share, and the configuration's
`parse_cidr` and `ip_in_cidr`.
-/
import Mathlib.Data.Nat.Notation

namespace Didicafe

inductive IpAddr where
  | v4 (bits : BitVec 32)
  | v6 (bits : BitVec 128)
deriving DecidableEq

def IpAddr.isIpv4 : IpAddr → Bool
  | .v4 _ => true
  | .v6 _ => false

/-! ## Reading addresses -/

/-- `char::to_digit`, for a radix of at most 16. -/
def toDigit (radix : Nat) (c : Char) : Option Nat :=
  let digit :=
    if '0' ≤ c ∧ c ≤ '9' then some (c.toNat - '0'.toNat)
    else if 'a' ≤ c ∧ c ≤ 'f' then some (c.toNat - 'a'.toNat + 10)
    else if 'A' ≤ c ∧ c ≤ 'F' then some (c.toNat - 'A'.toNat + 10)
    else none
  digit.filter (· < radix)

/-- The value of a text of digits; none when another character is among them. -/
def ofDigits (radix : Nat) (s : List Char) : Option Nat :=
  s.foldlM (fun n c => (toDigit radix c).map fun d => n * radix + d) 0

/-- `read_number(radix, Some(max_digits), allow_zero_prefix)` into an integer of at most `max`. -/
def readNumber (radix maxDigits : Nat) (allowZeroPrefix : Bool) (max : Nat) (s : List Char) :
    Option (Nat × List Char) := do
  let digits := s.takeWhile fun c => (toDigit radix c).isSome
  guard (digits ≠ [] ∧ digits.length ≤ maxDigits)
  guard (allowZeroPrefix ∨ digits.head? ≠ some '0' ∨ digits.length = 1)
  let n ← ofDigits radix digits
  guard (n ≤ max)
  some (n, s.drop digits.length)

/-- `read_separator`: the separator comes before every item but the first. -/
def readSeparator {α : Type} (sep : Char) (i : Nat) (inner : List Char → Option (α × List Char)) (s : List Char) :
    Option (α × List Char) :=
  if i = 0 then inner s
  else match s with
    | c :: s => if c = sep then inner s else none
    | [] => none

def readOctet (i : Nat) : List Char → Option (Nat × List Char) :=
  readSeparator '.' i (readNumber 10 3 false 255)

def readIpv4Addr (s : List Char) : Option (Nat × List Char) := do
  let (a, s) ← readOctet 0 s
  let (b, s) ← readOctet 1 s
  let (c, s) ← readOctet 2 s
  let (d, s) ← readOctet 3 s
  some (((a * 256 + b) * 256 + c) * 256 + d, s)

/-- `read_groups` from group `i` on, with `left` groups left. The groups read are followed by whether the last two are
an embedded IPv4 address, which needs two of them. -/
def readGroups (i : Nat) : (left : Nat) → List Char → List Nat × Bool × List Char
  | 0, s => ([], false, s)
  | left + 1, s =>
    match if 0 < left then readSeparator ':' i readIpv4Addr s else none with
    | some (v4, s) => ([v4 / 65536, v4 % 65536], true, s)
    | none =>
      match readSeparator ':' i (readNumber 16 4 true 65535) s with
      | none => ([], false, s)
      | some (g, s) =>
        let (gs, ipv4, s) := readGroups (i + 1) left s
        (g :: gs, ipv4, s)

/-- An IPv6 address of eight groups. -/
def ofGroups (groups : List Nat) : BitVec 128 :=
  groups.foldl (fun bits g => bits <<< 16 ||| BitVec.ofNat 128 g) 0

def readIpv6Addr (s : List Char) : Option (BitVec 128 × List Char) :=
  let (head, headIpv4, s) := readGroups 0 8 s
  if head.length = 8 then some (ofGroups head, s)
  else if headIpv4 then none
  else
    match s with
    | ':' :: ':' :: s =>
      let (tail, _, s) := readGroups 0 (8 - (head.length + 1)) s
      let zeros := List.replicate (8 - head.length - tail.length) 0
      some (ofGroups (head ++ zeros ++ tail), s)
    | _ => none

/-- `s.parse::<IpAddr>()`: the whole text is read. -/
def parseIpAddr (s : List Char) : Option IpAddr :=
  let ip := ((readIpv4Addr s).map fun x => (IpAddr.v4 (BitVec.ofNat 32 x.1), x.2)).or
    ((readIpv6Addr s).map fun x => (IpAddr.v6 x.1, x.2))
  ip.bind fun x => if x.2 = [] then some x.1 else none

/-- `s.parse::<u8>()`: decimal digits, after an optional plus sign. -/
def parseU8 (s : List Char) : Option Nat := do
  let digits := if s.head? = some '+' then s.tail else s
  guard (digits ≠ [])
  let n ← ofDigits 10 digits
  guard (n ≤ 255)
  some n

/-! ## Writing addresses -/

/-- `octets`. -/
def octets (bits : BitVec 32) : List Nat := [24, 16, 8, 0].map fun shift => (bits >>> shift).toNat % 256

/-- `segments`. -/
def segments (bits : BitVec 128) : List Nat :=
  [112, 96, 80, 64, 48, 32, 16, 0].map fun shift => (bits >>> shift).toNat % 65536

/-- The parts of a text with a separator character between them. -/
def separated (sep : Char) : List (List Char) → List Char
  | [] => []
  | [part] => part
  | part :: parts => part ++ sep :: separated sep parts

def fmtIpv4 (octets : List Nat) : List Char := separated '.' (octets.map (Nat.toDigits 10))

/-- `fmt_subslice`: segments in hexadecimal. -/
def fmtSubslice (chunk : List Nat) : List Char := separated ':' (chunk.map (Nat.toDigits 16))

/-- A run of zero segments. -/
structure Span where
  start : Nat
  len : Nat

/-- The loop over the segments from position `i` on: the current run of zeros and the longest one, the first of those
of one length. -/
def longestZeros (i : Nat) (current longest : Span) : List Nat → Span
  | [] => longest
  | segment :: segments =>
    if segment = 0 then
      let current : Span := ⟨if current.len = 0 then i else current.start, current.len + 1⟩
      longestZeros (i + 1) current (if longest.len < current.len then current else longest) segments
    else longestZeros (i + 1) ⟨0, 0⟩ longest segments

def fmtIpv6 (segments : List Nat) : List Char :=
  -- an address that maps an IPv4 address
  if segments.take 6 = [0, 0, 0, 0, 0, 0xffff] then
    "::ffff:".toList ++ fmtIpv4 ((segments.drop 6).flatMap fun s => [s / 256, s % 256])
  else
    let zeroes := longestZeros 0 ⟨0, 0⟩ ⟨0, 0⟩ segments
    if 1 < zeroes.len then
      fmtSubslice (segments.take zeroes.start) ++ "::".toList ++ fmtSubslice (segments.drop (zeroes.start + zeroes.len))
    else fmtSubslice segments

/-- `ip.to_string()`. -/
def IpAddr.display : IpAddr → String
  | .v4 bits => String.ofList (fmtIpv4 (octets bits))
  | .v6 bits => String.ofList (fmtIpv6 (segments bits))

example : ["10.10.0.5", "::1", "fe80::1:0:0:2", "::ffff:10.0.0.1", "1:0:2:3:4:5:6:7"].all fun s =>
    (parseIpAddr s.toList).map IpAddr.display = some s := by decide +kernel

/-! ## Networks -/

/-- `split_once`. -/
def splitOnce (sep : Char) (s : List Char) : Option (List Char × List Char) :=
  if sep ∈ s then some (s.takeWhile (· ≠ sep), (s.dropWhile (· ≠ sep)).tail) else none

def parseCidr (cidr : String) : Option (IpAddr × Nat) := do
  let (addrStr, prefixStr) ← splitOnce '/' cidr.toList
  let addr ← parseIpAddr addrStr
  let prefixLen ← parseU8 prefixStr
  let maxPrefix := if addr.isIpv4 then 32 else 128
  if maxPrefix < prefixLen then none
  some (addr, prefixLen)

/-- The network part of an address of `w` bits: `bits & (MAX << (w - prefix_len))`. -/
def masked {w : Nat} (bits : BitVec w) (prefixLen : Nat) : BitVec w := bits &&& BitVec.allOnes w <<< (w - prefixLen)

def ipInCidr (ip : IpAddr) (cidr : String) : Bool :=
  match parseCidr cidr with
  | none => false
  | some (network, prefixLen) =>
    match ip, network with
    | .v4 ip, .v4 net => if prefixLen = 0 then true else masked ip prefixLen = masked net prefixLen
    | .v6 ip, .v6 net => if prefixLen = 0 then true else masked ip prefixLen = masked net prefixLen
    | _, _ => false

end Didicafe
