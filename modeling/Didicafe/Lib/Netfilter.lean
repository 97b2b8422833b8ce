/-
A packet filter with connection tracking and address translation: chains of rules of which the first one that fires
decides, a table of the connections that are tracked, and what becomes of a packet. A connection enters the table when
its first packet has passed; its translation is decided then and for good.
-/
import Mathlib.Data.List.Pairwise
import Mathlib.Tactic.Common

namespace Didicafe.Netfilter

variable {A : Type}

/-! ## Packets -/

inductive Family where
  | ipv4
  | ipv6
deriving DecidableEq

inductive Proto where
  | tcp
  | udp
  | icmp
deriving DecidableEq

structure Endpoint (A : Type) where
  addr : A
  port : Nat
deriving DecidableEq

/-- The addresses of the packets in one direction of a connection. -/
structure Tuple (A : Type) where
  family : Family
  proto : Proto
  src : Endpoint A
  dst : Endpoint A
deriving DecidableEq

def Tuple.inverse (t : Tuple A) : Tuple A := { t with src := t.dst, dst := t.src }

/-- A packet, where it comes in. An error message quotes the packet it is about. -/
structure Packet (A : Type) where
  iifname : String
  etherSaddr : A
  tuple : Tuple A
  quotes : Option (Tuple A)

/-- The tuple a packet is tracked by. -/
def Packet.key (p : Packet A) : Tuple A := (p.quotes.map Tuple.inverse).getD p.tuple

/-! ## Connections -/

inductive Hook where
  | input
  | forward
  | output
deriving DecidableEq

/-- A tracked connection: the way of its first packet, and the tuples of its packets as they come in, in the direction
of the first one and in the other direction. -/
structure Conn (A : Type) where
  hook : Hook
  iifname : String
  etherSaddr : A
  oifname : String
  orig : Tuple A
  reply : Tuple A
  replied : Bool
deriving DecidableEq

inductive Dir where
  | original
  | reply
deriving DecidableEq

namespace Conn

/-- The tuple of the packets in a direction. -/
def tuple (c : Conn A) : Dir → Tuple A
  | .original => c.orig
  | .reply => c.reply

/-- Where packets in a direction are sent on to. -/
def target (c : Conn A) : Dir → Endpoint A
  | .original => c.reply.src
  | .reply => c.orig.src

/-- The same connection later on: it may have been replied to since. -/
def Later (c c' : Conn A) : Prop := c' = c ∨ c' = { c with replied := true }

theorem Later.refl (c : Conn A) : c.Later c := .inl rfl

theorem Later.trans {c c' c'' : Conn A} (h : c.Later c') (h' : c'.Later c'') : c.Later c'' := by
  rcases h with rfl | rfl
  · exact h'
  · rcases h' with rfl | rfl <;> exact .inr rfl

section Later

variable {c c' : Conn A} (h : c.Later c')

include h

theorem Later.hook : c'.hook = c.hook := by rcases h with rfl | rfl <;> rfl

theorem Later.etherSaddr : c'.etherSaddr = c.etherSaddr := by rcases h with rfl | rfl <;> rfl

theorem Later.orig : c'.orig = c.orig := by rcases h with rfl | rfl <;> rfl

theorem Later.tuple (dir : Dir) : c'.tuple dir = c.tuple dir := by rcases h with rfl | rfl <;> cases dir <;> rfl

theorem Later.target (dir : Dir) : c'.target dir = c.target dir := by rcases h with rfl | rfl <;> cases dir <;> rfl

theorem Later.replied (hr : c.replied = true) : c'.replied = true := by
  rcases h with rfl | rfl
  · exact hr
  · rfl

end Later

/-- The two have no tuple in common. -/
def Apart (c c' : Conn A) : Prop :=
  (c.orig ≠ c'.orig ∧ c.orig ≠ c'.reply) ∧ c.reply ≠ c'.orig ∧ c.reply ≠ c'.reply

instance : Std.Symm (α := Conn A) Apart :=
  ⟨fun _ _ h => ⟨⟨h.1.1.symm, h.2.1.symm⟩, h.1.2.symm, h.2.2.symm⟩⟩

end Conn

/-- No tuple belongs to two connections. -/
def Distinct (conns : List (Conn A)) : Prop := conns.Pairwise Conn.Apart

theorem Distinct.apart {conns : List (Conn A)} (h : Distinct conns) {c c' : Conn A} (hc : c ∈ conns) (hc' : c' ∈ conns)
    (hne : c ≠ c') : c.Apart c' :=
  h.forall hc hc' hne

/-- `ct state`. -/
inductive CtState where
  | new
  | established
  | related
  | invalid
deriving DecidableEq

section Table

variable [DecidableEq A]

/-- The connection a tuple belongs to, and in which direction. -/
def lookup (conns : List (Conn A)) (t : Tuple A) : Option (Conn A × Dir) :=
  match conns.find? fun c => c.orig = t with
  | some c => some (c, .original)
  | none => (conns.find? fun c => c.reply = t).map fun c => (c, .reply)

def ctState (conns : List (Conn A)) (p : Packet A) : CtState :=
  match lookup conns p.key, p.quotes with
  | some (c, dir), none => if dir = .original ∧ c.replied = false then .new else .established
  | some _, some _ => .related
  | none, none => .new
  | none, some _ => .invalid

/-- The connection has been replied to. -/
def markReplied (conns : List (Conn A)) (c : Conn A) : List (Conn A) :=
  conns.map fun c' => if c'.orig = c.orig then { c' with replied := true } else c'

section Lookup

variable {conns : List (Conn A)} {t : Tuple A} {c : Conn A} {dir : Dir}

theorem lookup_original (h : lookup conns t = some (c, .original)) : c ∈ conns ∧ c.orig = t := by
  unfold lookup at h
  cases hc : conns.find? fun c => c.orig = t with
  | none => rw [hc] at h; obtain ⟨_, -, h⟩ := Option.map_eq_some_iff.1 h; cases h
  | some c' =>
    rw [hc] at h
    cases h
    exact ⟨List.mem_of_find?_eq_some hc, by simpa using List.find?_some hc⟩

theorem lookup_reply (h : lookup conns t = some (c, .reply)) : c ∈ conns ∧ c.reply = t := by
  unfold lookup at h
  cases hc : conns.find? fun c => c.orig = t with
  | some c' => rw [hc] at h; cases h
  | none =>
    rw [hc] at h
    obtain ⟨c', hc', h⟩ := Option.map_eq_some_iff.1 h
    cases h
    exact ⟨List.mem_of_find?_eq_some hc', by simpa using List.find?_some hc'⟩

theorem lookup_mem (h : lookup conns t = some (c, dir)) : c ∈ conns := by
  cases dir with
  | original => exact (lookup_original h).1
  | reply => exact (lookup_reply h).1

theorem lookup_none (h : lookup conns t = none) : ∀ c ∈ conns, c.orig ≠ t ∧ c.reply ≠ t := by
  intro c hc
  unfold lookup at h
  cases hf : conns.find? fun c => c.orig = t with
  | some c' => rw [hf] at h; cases h
  | none =>
    rw [hf] at h
    exact ⟨by simpa using List.find?_eq_none.1 hf c hc,
      by simpa using List.find?_eq_none.1 (Option.map_eq_none_iff.1 h) c hc⟩

/-- When no tuple belongs to two connections, a connection is found by its own. -/
theorem lookup_orig (hd : Distinct conns) (hc : c ∈ conns) : lookup conns c.orig = some (c, .original) := by
  cases h : conns.find? fun c' => c'.orig = c.orig with
  | none => exact absurd (decide_eq_true (p := c.orig = c.orig) rfl) (List.find?_eq_none.1 h c hc)
  | some c' =>
    have horig : c'.orig = c.orig := by simpa using List.find?_some h
    have : c' = c := by
      by_contra hne
      exact (hd.apart (List.mem_of_find?_eq_some h) hc hne).1.1 horig
    unfold lookup
    rw [h, this]

/-- So are its packets in the other direction. -/
theorem lookup_tuple (hd : Distinct conns) (hc : c ∈ conns) (dir : Dir) :
    ∃ dir', lookup conns (c.tuple dir) = some (c, dir') ∧ c.target dir' = c.target dir := by
  cases dir with
  | original => exact ⟨_, lookup_orig hd hc, rfl⟩
  | reply =>
    cases h : lookup conns c.reply with
    | none => exact absurd rfl (lookup_none h c hc).2
    | some x =>
      obtain ⟨c', dir'⟩ := x
      have hsame : c' = c := by
        by_contra hne
        have hapart := hd.apart (lookup_mem h) hc hne
        cases dir' with
        | original => exact hapart.1.2 (lookup_original h).2
        | reply => exact hapart.2.2 (lookup_reply h).2
      subst c'
      refine ⟨dir', h, ?_⟩
      cases dir' with
      | original =>
        -- both tuples of the connection are the same
        have he : c.orig = c.reply := (lookup_original h).2
        exact congrArg Tuple.src he.symm
      | reply => rfl

end Lookup

theorem mem_markReplied {conns : List (Conn A)} {c c' : Conn A} (h : c' ∈ markReplied conns c) :
    ∃ c₀ ∈ conns, c₀.Later c' := by
  obtain ⟨c₀, h₀, rfl⟩ := List.mem_map.1 h
  refine ⟨c₀, h₀, ?_⟩
  split
  · exact .inr rfl
  · exact .inl rfl

theorem exists_markReplied {conns : List (Conn A)} (c : Conn A) {c₀ : Conn A} (h : c₀ ∈ conns) :
    ∃ c' ∈ markReplied conns c, c₀.Later c' := by
  refine ⟨_, List.mem_map_of_mem h, ?_⟩
  split
  · exact .inr rfl
  · exact .inl rfl

theorem distinct_markReplied {conns : List (Conn A)} (hd : Distinct conns) (c : Conn A) :
    Distinct (markReplied conns c) := by
  refine List.pairwise_map.2 (hd.imp fun {c₁ c₂} h => ?_)
  split
  · split <;> exact h
  · split <;> exact h

end Table

/-! ## Rules -/

/-- What the rules see of a packet, as far as it has been translated. -/
structure View (A : Type) where
  iifname : String
  oifname : String
  etherSaddr : A
  state : CtState
  tuple : Tuple A

inductive Match where
  | iifname (names : List String)
  | oifname (name : String)
  | ctState (states : List CtState)
  | sport (proto : Proto) (ports : List Nat)
  | dport (proto : Proto) (ports : List Nat)
  /-- `ether saddr . ip saddr @set` -/
  | etherIpSaddr (set : String)
deriving DecidableEq

inductive Statement (A : Type) where
  | accept
  | drop
  /-- `dnat to` an IPv4 address. -/
  | dnat (dst : Endpoint A)
  | masquerade
deriving DecidableEq

structure Rule (A : Type) where
  conditions : List Match
  statement : Statement A

structure Chain (A : Type) where
  policy : Statement A
  rules : List (Rule A)

/-- The pairs of the named sets. -/
abbrev Sets (A : Type) := String → A × A → Bool

def Match.holds (sets : Sets A) (v : View A) : Match → Bool
  | .iifname names => names.contains v.iifname
  | .oifname name => v.oifname = name
  | .ctState states => states.contains v.state
  | .sport proto ports => v.tuple.proto = proto && ports.contains v.tuple.src.port
  | .dport proto ports => v.tuple.proto = proto && ports.contains v.tuple.dst.port
  | .etherIpSaddr set => v.tuple.family = .ipv4 && sets set (v.etherSaddr, v.tuple.src.addr)

/-- A statement with an IPv4 address is for IPv4 packets only. -/
def Statement.admits (v : View A) : Statement A → Bool
  | .dnat _ => v.tuple.family = .ipv4
  | _ => true

def Rule.fires (sets : Sets A) (v : View A) (r : Rule A) : Bool :=
  r.conditions.all (Match.holds sets v) && r.statement.admits v

def Chain.eval (sets : Sets A) (v : View A) (c : Chain A) : Statement A :=
  ((c.rules.find? (Rule.fires sets v)).map (·.statement)).getD c.policy

/-- A statement other than the policy comes from a rule that fires. -/
theorem Chain.exists_of_eval {sets : Sets A} {v : View A} {c : Chain A} {st : Statement A} (h : c.eval sets v = st)
    (hne : c.policy ≠ st) : ∃ r ∈ c.rules, r.fires sets v = true ∧ r.statement = st := by
  unfold Chain.eval at h
  cases hr : c.rules.find? (Rule.fires sets v) with
  | none =>
    rw [hr] at h
    exact absurd h hne
  | some r =>
    rw [hr] at h
    exact ⟨r, List.mem_of_find?_eq_some hr, List.find?_some hr, h⟩

/-- The chains of a ruleset; the chains of the `nat` hooks see the first packet of a connection only. -/
structure Ruleset (A : Type) where
  prerouting : Chain A
  input : Chain A
  forward : Chain A
  postrouting : Chain A

/-! ## The machine -/

/-- The addresses of a machine and the routes from it. -/
structure Network (A : Type) where
  isLocal : A → Bool
  route : A → String
  /-- The address of an interface. -/
  address : String → Family → A

inductive Outcome (A : Type) where
  | dropped
  | delivered (dst : Endpoint A)
  | forwarded (oifname : String) (dst : Endpoint A)
deriving DecidableEq

section Machine

variable [DecidableEq A] (r : Ruleset A) (net : Network A) (sets : Sets A)

/-- Where a packet is headed for, once the destination is translated; nowhere if it is dropped. -/
def destination (conns : List (Conn A)) (p : Packet A) : Option (Endpoint A) :=
  match lookup conns p.key, p.quotes with
  | some (c, dir), _ => some (c.target dir)
  | none, some _ => some p.tuple.dst
  | none, none =>
    match r.prerouting.eval sets ⟨p.iifname, "", p.etherSaddr, .new, p.tuple⟩ with
    | .dnat dst => some dst
    | .drop => none
    | _ => some p.tuple.dst

/-- Where a new connection comes from, for the next host. -/
def source (v : View A) : Option (Endpoint A) :=
  match r.postrouting.eval sets v with
  | .masquerade => some ⟨net.address v.oifname v.tuple.family, v.tuple.src.port⟩
  | .drop => none
  | _ => some v.tuple.src

/-- What the filter chain sees of a packet headed for `dst`. -/
def filterView (conns : List (Conn A)) (p : Packet A) (dst : Endpoint A) : View A :=
  { iifname := p.iifname, oifname := if net.isLocal dst.addr then "" else net.route dst.addr,
    etherSaddr := p.etherSaddr, state := ctState conns p, tuple := { p.tuple with dst := dst } }

/-- The connection of a first packet, which comes from `src` for the next host. -/
def Conn.opened (hook : Hook) (p : Packet A) (v : View A) (src : Endpoint A) : Conn A :=
  { hook := hook, iifname := p.iifname, etherSaddr := p.etherSaddr, oifname := v.oifname, orig := p.tuple,
    reply := { v.tuple with src := v.tuple.dst, dst := src }, replied := false }

/-- A connection is entered. If packets in its other direction would be taken for another one's, it is for the next host
to come from `port`, a port the machine picks; if that is no better, the connection is not entered. -/
def enter (port : Nat) (conns : List (Conn A)) (c : Conn A) : Option (List (Conn A)) :=
  let moved : Conn A := { c with reply := { c.reply with dst := ⟨c.reply.dst.addr, port⟩ } }
  if lookup conns c.reply = none then some (conns ++ [c])
  else if lookup conns moved.reply = none then some (conns ++ [moved])
  else none

/-- The table after a packet that the filter has accepted; none if it is dropped even so. -/
def confirm (port : Nat) (conns : List (Conn A)) (p : Packet A) (v : View A) : Option (List (Conn A)) :=
  match lookup conns p.key, p.quotes with
  | some (c, .reply), none => some (markReplied conns c)
  | some _, _ => some conns
  | none, some _ => some conns
  | none, none =>
    if net.isLocal v.tuple.dst.addr then enter port conns (.opened .input p v p.tuple.src)
    else (source r net sets v).bind fun src => enter port conns (.opened .forward p v src)

/-- A packet comes in. Packets from outside that claim to come from the machine itself are dropped. -/
def receive (port : Nat) (conns : List (Conn A)) (p : Packet A) : Outcome A × List (Conn A) :=
  if p.iifname ≠ "lo" ∧ net.isLocal p.tuple.src.addr = true then (.dropped, conns)
  else
    match destination r sets conns p with
    | none => (.dropped, conns)
    | some dst =>
      let v := filterView net conns p dst
      let chain := if net.isLocal dst.addr then r.input else r.forward
      if chain.eval sets v = .accept then
        match confirm r net sets port conns p v with
        | none => (.dropped, conns)
        | some conns' =>
          (if net.isLocal dst.addr then .delivered dst else .forwarded (net.route dst.addr) dst, conns')
      else (.dropped, conns)

/-- The machine sends a packet of its own; no chain filters these. -/
def send (port : Nat) (ether : A) (conns : List (Conn A)) (t : Tuple A) : List (Conn A) :=
  match lookup conns t with
  | some (c, .reply) => markReplied conns c
  | some (_, .original) => conns
  | none =>
    let v : View A := ⟨"", net.route t.dst.addr, ether, .new, t⟩
    (((source r net sets v).bind fun src => enter port conns (.opened .output ⟨"", ether, t, none⟩ v src))).getD conns

end Machine

/-! ## What a step does to the table -/

section Steps

variable [DecidableEq A] {r : Ruleset A} {net : Network A} {sets : Sets A} {port : Nat} {conns : List (Conn A)}
  {p : Packet A}

/-- What a packet opens a connection with: it belongs to none, and the rules let it pass. -/
structure Opened (r : Ruleset A) (net : Network A) (sets : Sets A) (conns : List (Conn A)) (p : Packet A) (c : Conn A) :
    Prop where
  iifname : c.iifname = p.iifname
  etherSaddr : c.etherSaddr = p.etherSaddr
  orig : c.orig = p.tuple
  unknown : lookup conns p.tuple = none
  quotes : p.quotes = none
  outside : p.iifname ≠ "lo" → net.isLocal p.tuple.src.addr = false
  destination : destination r sets conns p = some c.reply.src
  passes : c.hook = .input ∧ net.isLocal c.reply.src.addr = true ∧
      r.input.eval sets (filterView net conns p c.reply.src) = .accept ∨
    c.hook = .forward ∧ net.isLocal c.reply.src.addr = false ∧ c.oifname = net.route c.reply.src.addr ∧
      r.forward.eval sets (filterView net conns p c.reply.src) = .accept

/-- What becomes of a packet: it is dropped and changes nothing, or it is headed for some destination and passes. -/
theorem receive_cases (r : Ruleset A) (net : Network A) (sets : Sets A) (port : Nat) (conns : List (Conn A))
    (p : Packet A) : receive r net sets port conns p = (.dropped, conns) ∨
    (p.iifname ≠ "lo" → net.isLocal p.tuple.src.addr = false) ∧ ∃ dst conns', destination r sets conns p = some dst ∧
      (if net.isLocal dst.addr then r.input else r.forward).eval sets (filterView net conns p dst) = .accept ∧
      confirm r net sets port conns p (filterView net conns p dst) = some conns' ∧
      receive r net sets port conns p =
        (if net.isLocal dst.addr then .delivered dst else .forwarded (net.route dst.addr) dst, conns') := by
  unfold receive
  split
  · exact .inl rfl
  · rename_i hsrc
    have hsrc : p.iifname ≠ "lo" → net.isLocal p.tuple.src.addr = false := fun hlo => by simpa [hlo] using hsrc
    cases hd : destination r sets conns p with
    | none => exact .inl rfl
    | some dst =>
      by_cases heval : (if net.isLocal dst.addr then r.input else r.forward).eval sets (filterView net conns p dst) =
          .accept
      · cases hc : confirm r net sets port conns p (filterView net conns p dst) with
        | none => exact .inl (by simp only [if_pos heval, hc])
        | some conns' => exact .inr ⟨hsrc, dst, conns', rfl, heval, hc, by simp only [if_pos heval, hc]⟩
      · exact .inl (by simp only [if_neg heval])

theorem enter_some {conns' : List (Conn A)} {c : Conn A} (h : enter port conns c = some conns') :
    ∃ dst, lookup conns { c.reply with dst := dst } = none ∧
      conns' = conns ++ [{ c with reply := { c.reply with dst := dst } }] := by
  unfold enter at h
  simp only at h
  split at h
  · cases h
    exact ⟨c.reply.dst, ‹_›, rfl⟩
  · split at h
    · cases h
      exact ⟨_, ‹_›, rfl⟩
    · cases h

theorem mem_enter {conns' : List (Conn A)} {c c' : Conn A} (h : enter port conns c = some conns') (hc : c' ∈ conns') :
    c' ∈ conns ∨ ∃ dst, c' = { c with reply := { c.reply with dst := dst } } := by
  obtain ⟨dst, -, rfl⟩ := enter_some h
  rcases List.mem_append.1 hc with hc | hc
  · exact .inl hc
  · exact .inr ⟨dst, List.mem_singleton.1 hc⟩

theorem subset_enter {conns' : List (Conn A)} {c : Conn A} (h : enter port conns c = some conns') : conns ⊆ conns' := by
  obtain ⟨dst, -, rfl⟩ := enter_some h
  exact List.subset_append_left ..

/-- The packet that opens a connection is new. -/
theorem Opened.ctState {c : Conn A} (h : Opened r net sets conns p c) : ctState conns p = .new := by
  unfold Netfilter.ctState Packet.key
  rw [h.quotes]
  simp only [Option.map_none, Option.getD_none, h.unknown]

/-- What the table holds once a packet has passed: the connections as they were or replied to, and the one that the
packet has opened. -/
theorem confirm_cases {conns' : List (Conn A)} {v : View A} (h : confirm r net sets port conns p v = some conns') :
    conns' = conns ∨ (∃ c, lookup conns p.tuple = some (c, .reply) ∧ conns' = markReplied conns c) ∨
      p.quotes = none ∧ lookup conns p.tuple = none ∧
        ∃ hook src, enter port conns (.opened hook p v src) = some conns' ∧
          (hook = .input ∧ net.isLocal v.tuple.dst.addr = true ∨
            hook = .forward ∧ net.isLocal v.tuple.dst.addr = false) := by
  unfold confirm at h
  cases hq : p.quotes with
  | some t =>
    rw [hq] at h
    cases hl : lookup conns p.key with
    | none => rw [hl] at h; cases h; exact .inl rfl
    | some x =>
      rw [hl] at h
      obtain ⟨c, _ | _⟩ := x
      · cases h; exact .inl rfl
      · cases h; exact .inl rfl
  | none =>
    have hkey : p.key = p.tuple := by unfold Packet.key; rw [hq]; rfl
    rw [hq, hkey] at h
    cases hl : lookup conns p.tuple with
    | some x =>
      rw [hl] at h
      obtain ⟨c, _ | _⟩ := x
      · cases h; exact .inl rfl
      · cases h; exact .inr (.inl ⟨c, rfl, rfl⟩)
    | none =>
      rw [hl] at h
      refine .inr (.inr ⟨rfl, rfl, ?_⟩)
      simp only at h
      cases hlocal : net.isLocal v.tuple.dst.addr with
      | true =>
        rw [hlocal] at h
        exact ⟨.input, p.tuple.src, h, .inl ⟨rfl, rfl⟩⟩
      | false =>
        rw [hlocal] at h
        obtain ⟨src, -, h⟩ := Option.bind_eq_some_iff.1 h
        exact ⟨.forward, src, h, .inr ⟨rfl, rfl⟩⟩

/-- Every connection after a packet was there before, up to a reply, or was opened by the packet. -/
theorem mem_receive {c' : Conn A} (h : c' ∈ (receive r net sets port conns p).2) :
    (∃ c ∈ conns, c.Later c') ∨ Opened r net sets conns p c' := by
  have kept (hc : c' ∈ conns) : ∃ c ∈ conns, c.Later c' := ⟨c', hc, .refl c'⟩
  rcases receive_cases r net sets port conns p with
    hr | ⟨hout, dst, conns', hdst, heval, hconf, hr⟩
  · rw [hr] at h
    exact .inl (kept h)
  · rw [hr] at h
    rcases confirm_cases hconf with rfl | ⟨c, -, rfl⟩ | ⟨hq, hl, hook, src, henter, hhook⟩
    · exact .inl (kept h)
    · exact .inl (mem_markReplied h)
    · rcases mem_enter henter h with h | ⟨rdst, rfl⟩
      · exact .inl (kept h)
      · refine .inr ⟨rfl, rfl, rfl, hl, hq, hout, hdst, ?_⟩
        show (hook = .input ∧ net.isLocal dst.addr = true ∧ _ ∨ hook = .forward ∧ net.isLocal dst.addr = false ∧
          (filterView net conns p dst).oifname = net.route dst.addr ∧ _)
        rcases hhook with ⟨rfl, hlocal⟩ | ⟨rfl, hlocal⟩
        · have hlocal' : net.isLocal dst.addr = true := hlocal
          rw [hlocal'] at heval
          exact .inl ⟨rfl, hlocal', heval⟩
        · have hlocal' : net.isLocal dst.addr = false := hlocal
          rw [hlocal'] at heval
          exact .inr ⟨rfl, hlocal', by simp [filterView, hlocal'], heval⟩

/-- A packet takes no connection out of the table. -/
theorem exists_receive {c : Conn A} (h : c ∈ conns) : ∃ c' ∈ (receive r net sets port conns p).2, c.Later c' := by
  rcases receive_cases r net sets port conns p with
    hr | ⟨-, dst, conns', -, -, hconf, hr⟩
  · rw [hr]
    exact ⟨c, h, .refl c⟩
  · rw [hr]
    rcases confirm_cases hconf with rfl | ⟨c₁, -, rfl⟩ | ⟨-, -, hook, src, henter, -⟩
    · exact ⟨c, h, .refl c⟩
    · exact exists_markReplied c₁ h
    · exact ⟨c, subset_enter henter h, .refl c⟩

theorem distinct_enter {conns' : List (Conn A)} {c : Conn A} (hd : Distinct conns)
    (hl : lookup conns c.orig = none) (h : enter port conns c = some conns') : Distinct conns' := by
  obtain ⟨dst, hfree, rfl⟩ := enter_some h
  refine List.pairwise_append.2 ⟨hd, List.pairwise_singleton .., fun c₀ h₀ c' hc' => ?_⟩
  rw [List.mem_singleton.1 hc']
  exact ⟨⟨(lookup_none hl c₀ h₀).1, (lookup_none hfree c₀ h₀).1⟩, (lookup_none hl c₀ h₀).2,
    (lookup_none hfree c₀ h₀).2⟩

theorem distinct_receive (hd : Distinct conns) : Distinct (receive r net sets port conns p).2 := by
  rcases receive_cases r net sets port conns p with
    hr | ⟨-, dst, conns', -, -, hconf, hr⟩
  · rw [hr]
    exact hd
  · rw [hr]
    rcases confirm_cases hconf with rfl | ⟨c₁, -, rfl⟩ | ⟨-, hl, hook, src, henter, -⟩
    · exact hd
    · exact distinct_markReplied hd c₁
    · exact distinct_enter hd hl henter

/-! ### Sending -/

/-- What the machine's own packets do to the table. -/
theorem send_cases (r : Ruleset A) (net : Network A) (sets : Sets A) (port : Nat) (conns : List (Conn A)) (ether : A)
    (t : Tuple A) : send r net sets port ether conns t = conns ∨
    (∃ c, lookup conns t = some (c, .reply) ∧ send r net sets port ether conns t = markReplied conns c) ∨
      lookup conns t = none ∧ ∃ src, enter port conns
        (.opened .output ⟨"", ether, t, none⟩ ⟨"", net.route t.dst.addr, ether, .new, t⟩ src) =
          some (send r net sets port ether conns t) := by
  unfold send
  cases hl : lookup conns t with
  | some x =>
    obtain ⟨c, _ | _⟩ := x
    · exact .inl rfl
    · exact .inr (.inl ⟨c, rfl, rfl⟩)
  | none =>
    simp only
    cases hs : source r net sets ⟨"", net.route t.dst.addr, ether, .new, t⟩ with
    | none => exact .inl rfl
    | some src =>
      simp only [Option.bind_some]
      cases he : enter port conns
          (.opened .output ⟨"", ether, t, none⟩ ⟨"", net.route t.dst.addr, ether, .new, t⟩ src) with
      | none => exact .inl rfl
      | some conns' => exact .inr (.inr ⟨trivial, src, he⟩)

theorem mem_send {ether : A} {t : Tuple A} {c' : Conn A} (h : c' ∈ send r net sets port ether conns t) :
    (∃ c ∈ conns, c.Later c') ∨ c'.hook = .output ∧ c'.orig = t := by
  have kept (hc : c' ∈ conns) : ∃ c ∈ conns, c.Later c' := ⟨c', hc, .refl c'⟩
  rcases send_cases r net sets port conns ether t with
    hs | ⟨c, -, hs⟩ | ⟨-, src, henter⟩
  · rw [hs] at h
    exact .inl (kept h)
  · rw [hs] at h
    exact .inl (mem_markReplied h)
  · rcases mem_enter henter h with h | ⟨dst, rfl⟩
    · exact .inl (kept h)
    · exact .inr ⟨rfl, rfl⟩

theorem exists_send {ether : A} {t : Tuple A} {c : Conn A} (h : c ∈ conns) :
    ∃ c' ∈ send r net sets port ether conns t, c.Later c' := by
  rcases send_cases r net sets port conns ether t with
    hs | ⟨c₁, -, hs⟩ | ⟨-, src, henter⟩
  · rw [hs]
    exact ⟨c, h, .refl c⟩
  · rw [hs]
    exact exists_markReplied c₁ h
  · exact ⟨c, subset_enter henter h, .refl c⟩

theorem distinct_send {ether : A} {t : Tuple A} (hd : Distinct conns) :
    Distinct (send r net sets port ether conns t) := by
  rcases send_cases r net sets port conns ether t with
    hs | ⟨c₁, -, hs⟩ | ⟨hl, src, henter⟩
  · rw [hs]
    exact hd
  · rw [hs]
    exact distinct_markReplied hd c₁
  · exact distinct_enter hd hl henter

/-! ### Outcomes -/

theorem receive_forwarded {oifname : String} {dst : Endpoint A}
    (h : (receive r net sets port conns p).1 = .forwarded oifname dst) :
    (p.iifname ≠ "lo" → net.isLocal p.tuple.src.addr = false) ∧ destination r sets conns p = some dst ∧
      net.isLocal dst.addr = false ∧ oifname = net.route dst.addr ∧
      r.forward.eval sets (filterView net conns p dst) = .accept := by
  rcases receive_cases r net sets port conns p with
    hr | ⟨hout, dst', conns', hdst, heval, -, hr⟩
  · rw [hr] at h
    cases h
  · rw [hr] at h
    cases hlocal : net.isLocal dst'.addr with
    | true => rw [hlocal] at h; cases h
    | false =>
      rw [hlocal] at h heval
      cases h
      exact ⟨hout, hdst, hlocal, rfl, heval⟩

theorem receive_delivered {dst : Endpoint A} (h : (receive r net sets port conns p).1 = .delivered dst) :
    (p.iifname ≠ "lo" → net.isLocal p.tuple.src.addr = false) ∧ destination r sets conns p = some dst ∧
      net.isLocal dst.addr = true ∧ r.input.eval sets (filterView net conns p dst) = .accept := by
  rcases receive_cases r net sets port conns p with
    hr | ⟨hout, dst', conns', hdst, heval, -, hr⟩
  · rw [hr] at h
    cases h
  · rw [hr] at h
    cases hlocal : net.isLocal dst'.addr with
    | false => rw [hlocal] at h; cases h
    | true =>
      rw [hlocal] at h heval
      cases h
      exact ⟨hout, hdst, hlocal, heval⟩

theorem enter_of_free {c : Conn A} (h : lookup conns { c.reply with dst := ⟨c.reply.dst.addr, port⟩ } = none) :
    ∃ conns', enter port conns c = some conns' := by
  unfold enter
  simp only [h]
  split
  · exact ⟨_, rfl⟩
  · exact ⟨_, rfl⟩

/-- A packet that passes the filter is not dropped. -/
theorem receive_passes {dst : Endpoint A} {conns' : List (Conn A)} (hsrc : net.isLocal p.tuple.src.addr = false)
    (hdst : destination r sets conns p = some dst)
    (heval : (if net.isLocal dst.addr then r.input else r.forward).eval sets (filterView net conns p dst) = .accept)
    (hconf : confirm r net sets port conns p (filterView net conns p dst) = some conns') :
    receive r net sets port conns p =
      (if net.isLocal dst.addr then .delivered dst else .forwarded (net.route dst.addr) dst, conns') := by
  unfold receive
  rw [if_neg (by rw [hsrc]; simp), hdst]
  simp only [if_pos heval, hconf]

/-- A first packet for the machine itself opens a connection, when there is a port to open it with. -/
theorem receive_first (port : Nat) {dst : Endpoint A} (hsrc : net.isLocal p.tuple.src.addr = false)
    (hq : p.quotes = none) (hl : lookup conns p.tuple = none) (hdst : destination r sets conns p = some dst)
    (hlocal : net.isLocal dst.addr = true) (heval : r.input.eval sets (filterView net conns p dst) = .accept)
    (hfree : lookup conns { p.tuple with src := dst, dst := ⟨p.tuple.src.addr, port⟩ } = none) :
    (receive r net sets port conns p).1 = .delivered dst ∧
      ∃ c ∈ (receive r net sets port conns p).2, c.orig = p.tuple ∧ c.reply.src = dst := by
  have hkey : p.key = p.tuple := by unfold Packet.key; rw [hq]; rfl
  let c := Conn.opened .input p (filterView net conns p dst) p.tuple.src
  obtain ⟨conns', henter⟩ : ∃ conns', enter port conns c = some conns' := enter_of_free hfree
  have hconf : confirm r net sets port conns p (filterView net conns p dst) = some conns' := by
    unfold confirm
    rw [hkey, hl, hq]
    exact (if_pos hlocal).trans henter
  rw [receive_passes hsrc hdst (by rw [if_pos hlocal]; exact heval) hconf, if_pos hlocal]
  obtain ⟨rdst, -, rfl⟩ := enter_some henter
  exact ⟨rfl, _, List.mem_append_right _ (List.mem_singleton.2 rfl), rfl, rfl⟩

/-- A packet of a connection goes where those in its direction go, when the filter lets it. -/
theorem receive_tracked (port : Nat) {c : Conn A} {dir : Dir} (hsrc : net.isLocal p.tuple.src.addr = false)
    (hq : p.quotes = none) (hl : lookup conns p.tuple = some (c, dir))
    (heval : (if net.isLocal (c.target dir).addr then r.input else r.forward).eval sets
      (filterView net conns p (c.target dir)) = .accept) :
    (receive r net sets port conns p).1 =
      if net.isLocal (c.target dir).addr then .delivered (c.target dir)
      else .forwarded (net.route (c.target dir).addr) (c.target dir) := by
  have hkey : p.key = p.tuple := by unfold Packet.key; rw [hq]; rfl
  have hdst : destination r sets conns p = some (c.target dir) := by
    unfold destination
    rw [hkey, hl]
  have hconf : ∃ conns', confirm r net sets port conns p (filterView net conns p (c.target dir)) = some conns' := by
    unfold confirm
    rw [hkey, hl, hq]
    cases dir <;> exact ⟨_, rfl⟩
  obtain ⟨conns', hconf⟩ := hconf
  rw [receive_passes hsrc hdst heval hconf]

end Steps

end Didicafe.Netfilter
