/-
The CIDR match: `ip_in_cidr` compares exactly the leading bits that the prefix length names, and no step of its word
arithmetic can panic.
-/
import Didicafe.Lib.Leading
import Didicafe.Model.Net

namespace Didicafe

variable {w : Nat}

/-! ## The word arithmetic, checked -/

/-- `bits << n`, none where the shift is by the full width. -/
def checkedShl (bits : BitVec w) (n : Nat) : Option (BitVec w) := if n < w then some (bits <<< n) else none

/-- `MAX << (w - prefix_len)`, none where the difference or the shift panics. -/
def cidrMask (w prefixLen : Nat) : Option (BitVec w) :=
  if prefixLen ≤ w then checkedShl (BitVec.allOnes w) (w - prefixLen) else none

/-- The arm of one family. -/
def inNetwork (ip net : BitVec w) (prefixLen : Nat) : Option Bool :=
  if prefixLen = 0 then some true else (cidrMask w prefixLen).map fun mask => decide (ip &&& mask = net &&& mask)

/-- `ip_in_cidr` with its arithmetic checked, none where it panics. -/
def checkedIpInCidr (ip : IpAddr) (cidr : String) : Option Bool :=
  match parseCidr cidr with
  | none => some false
  | some (network, prefixLen) =>
    match ip, network with
    | .v4 ip, .v4 net => inNetwork ip net prefixLen
    | .v6 ip, .v6 net => inNetwork ip net prefixLen
    | _, _ => some false

/-- The shift is short of the full width, since a prefix of length 0 is matched before. -/
theorem cidrMask_of_pos {prefixLen : Nat} (hpos : prefixLen ≠ 0) (hle : prefixLen ≤ w) :
    cidrMask w prefixLen = some (BitVec.allOnes w <<< (w - prefixLen)) := by
  have : w - prefixLen < w := by omega
  simp only [cidrMask, checkedShl, hle, this, if_true]

/-- The arm of one family decides that the leading bits agree. -/
theorem inNetwork_eq {ip net : BitVec w} {prefixLen : Nat} (hle : prefixLen ≤ w) :
    inNetwork ip net prefixLen = some (decide (BitVec.Agree prefixLen ip net)) := by
  unfold inNetwork
  split
  · next h => subst h; simp
  · next h => rw [cidrMask_of_pos h hle, Option.map_some, decide_eq_decide.2 (BitVec.leading_eq_iff hle)]

/-- The arm of the model is the same decision. -/
theorem masked_arm {ip net : BitVec w} {prefixLen : Nat} (hle : prefixLen ≤ w) :
    (if prefixLen = 0 then true else decide (masked ip prefixLen = masked net prefixLen)) =
      decide (BitVec.Agree prefixLen ip net) := by
  split
  · next h => subst h; simp
  · exact decide_eq_decide.2 (BitVec.leading_eq_iff hle)

/-! ## Addresses in a network -/

namespace IpAddr

/-- The number of bits of an address of its family. -/
def width : IpAddr → Nat
  | .v4 _ => 32
  | .v6 _ => 128

/-- The bit `i` of an address, from the front. -/
def bit : IpAddr → Nat → Bool
  | .v4 bits, i => bits.getMsbD i
  | .v6 bits, i => bits.getMsbD i

/-- `ip` is of the family of `network` and has its first `p` bits. -/
def InNetwork (ip network : IpAddr) (p : Nat) : Prop :=
  ip.isIpv4 = network.isIpv4 ∧ ∀ i < p, ip.bit i = network.bit i

variable {ip network network' : IpAddr} {p : Nat}

theorem InNetwork.symm (h : ip.InNetwork network p) : network.InNetwork ip p :=
  ⟨h.1.symm, fun i hi => (h.2 i hi).symm⟩

theorem InNetwork.trans (h : ip.InNetwork network p) (h' : network.InNetwork network' p) : ip.InNetwork network' p :=
  ⟨h.1.trans h'.1, fun i hi => (h.2 i hi).trans (h'.2 i hi)⟩

theorem inNetwork_v4 (ip net : BitVec 32) (p : Nat) : (v4 ip).InNetwork (v4 net) p ↔ BitVec.Agree p ip net :=
  ⟨And.right, And.intro rfl⟩

theorem inNetwork_v6 (ip net : BitVec 128) (p : Nat) : (v6 ip).InNetwork (v6 net) p ↔ BitVec.Agree p ip net :=
  ⟨And.right, And.intro rfl⟩

end IpAddr

/-- What is accepted has a prefix length of the family of the address. -/
theorem parseCidr_le {cidr : String} {network : IpAddr} {p : Nat} (h : parseCidr cidr = some (network, p)) :
    p ≤ network.width := by
  simp only [parseCidr, Option.bind_eq_bind, Option.bind_eq_some_iff] at h
  obtain ⟨-, -, addr, -, n, -, h⟩ := h
  by_cases hmax : (if addr.isIpv4 then 32 else 128) < n
  · rw [if_pos hmax] at h
    exact nomatch h
  · rw [if_neg hmax] at h
    obtain ⟨rfl, rfl⟩ := Prod.mk.inj (Option.some.inj h)
    cases addr with
    | v4 => exact Nat.not_lt.1 hmax
    | v6 => exact Nat.not_lt.1 hmax

/-- The outcome on a network that parses, by the families. -/
theorem ipInCidr_of_parse {cidr : String} {network : IpAddr} {p : Nat} (ip : IpAddr)
    (h : parseCidr cidr = some (network, p)) :
    checkedIpInCidr ip cidr = some (ipInCidr ip cidr) ∧ (ipInCidr ip cidr = true ↔ ip.InNetwork network p) := by
  have hle := parseCidr_le h
  unfold checkedIpInCidr ipInCidr
  rw [h]
  cases ip with
  | v4 ip =>
    cases network with
    | v4 net =>
      have hle : p ≤ 32 := hle
      simp only [inNetwork_eq hle, masked_arm hle, decide_eq_true_iff, true_and]
      exact (IpAddr.inNetwork_v4 ip net p).symm
    | v6 net => simp [IpAddr.InNetwork, IpAddr.isIpv4]
  | v6 ip =>
    cases network with
    | v4 net => simp [IpAddr.InNetwork, IpAddr.isIpv4]
    | v6 net =>
      have hle : p ≤ 128 := hle
      simp only [inNetwork_eq hle, masked_arm hle, decide_eq_true_iff, true_and]
      exact (IpAddr.inNetwork_v6 ip net p).symm

/-- The match is true exactly on the addresses of the network, whatever the written network has behind its prefix, and
neither the difference nor the shift panics. -/
theorem ipInCidr_exact (ip : IpAddr) (cidr : String) :
    checkedIpInCidr ip cidr = some (ipInCidr ip cidr) ∧
      (ipInCidr ip cidr = true ↔ ∃ network p, parseCidr cidr = some (network, p) ∧ p ≤ network.width ∧
        ip.isIpv4 = network.isIpv4 ∧ ∀ i < p, ip.bit i = network.bit i) ∧
      ∀ cidr' network network' p, parseCidr cidr = some (network, p) → parseCidr cidr' = some (network', p) →
        network.InNetwork network' p → ipInCidr ip cidr = ipInCidr ip cidr' := by
  refine ⟨?_, ?_, ?_⟩
  · cases hparse : parseCidr cidr with
    | none => simp only [checkedIpInCidr, ipInCidr, hparse]
    | some parsed => exact (ipInCidr_of_parse ip hparse).1
  · constructor
    · intro h
      cases hparse : parseCidr cidr with
      | none => simp only [ipInCidr, hparse, Bool.false_eq_true] at h
      | some parsed =>
        exact ⟨parsed.1, parsed.2, rfl, parseCidr_le hparse, (ipInCidr_of_parse ip hparse).2.1 h⟩
    · rintro ⟨network, p, hparse, -, hin⟩
      exact (ipInCidr_of_parse ip hparse).2.2 hin
  · intro cidr' network network' p hparse hparse' hhost
    rw [Bool.eq_iff_iff, (ipInCidr_of_parse ip hparse).2, (ipInCidr_of_parse ip hparse').2]
    exact ⟨(·.trans hhost), (·.trans hhost.symm)⟩

end Didicafe
