/-
The router: the daemon and everything that runs in it, and the packet filter whose set of clients it fills. Packets come
in and are sent in any order with what the daemon does, tracked connections are forgotten at any time.
-/
import Didicafe.Daemon.Origins
import Didicafe.Model.Ruleset

namespace Didicafe

open Effect Runs Netfilter

structure Router (c : CafeConfig) where
  house : House c
  conns : List (Conn String)

namespace Router

variable {c : CafeConfig}

/-- The pairs that are in set `auth_clients` now. -/
def authorized (s : Router c) (pair : String × String) : Bool := s.house.shared.set.Mem s.house.shared.now pair

def sets (s : Router c) : Sets String := namedSets s.authorized

end Router

/-- A step of the daemon; a packet comes in, or one of the machine's own is sent, with the port that a translation would
pick; a connection is forgotten. -/
inductive RouterLabel (c : CafeConfig) where
  | daemon (l : HouseLabel c)
  | receive (p : Packet String) (port : Nat)
  | send (ether : String) (t : Tuple String) (port : Nat)
  | forget (orig : Tuple String)

/-- What becomes of a packet that comes in. -/
def Router.outcome {c : CafeConfig} (net : Network String) (s : Router c) (p : Packet String) (port : Nat) :
    Outcome String :=
  (Netfilter.receive ruleset net s.sets port s.conns p).1

def Router.step {c : CafeConfig} (net : Network String) (s : Router c) : RouterLabel c → Option (Router c)
  | .daemon l => ((Didicafe.house c).step s.house l).map fun house => { s with house := house }
  | .receive p port => some { s with conns := (Netfilter.receive ruleset net s.sets port s.conns p).2 }
  | .send ether t port =>
    if net.isLocal t.src.addr then some { s with conns := Netfilter.send ruleset net s.sets port ether s.conns t }
    else none
  | .forget orig => some { s with conns := s.conns.filter fun c => c.orig ≠ orig }

/-- A new database, an empty set, and no connection. -/
def router (c : CafeConfig) (net : Network String) : Machine (Router c) (RouterLabel c) where
  init s := (house c).init s.house ∧ s.house.shared.db.tables.token = [] ∧ s.house.shared.db.tables.session = [] ∧
    (∀ k, s.house.shared.set k = none) ∧ s.conns = []
  step := Router.step net

theorem Router.step_send {c : CafeConfig} {net : Network String} {s s' : Router c} {ether : String} {t : Tuple String}
    {port : Nat} (h : s.step net (.send ether t port) = some s') : net.isLocal t.src.addr = true ∧
      s' = { s with conns := Netfilter.send ruleset net s.sets port ether s.conns t } := by
  unfold Router.step at h
  simp only at h
  split at h
  · cases h
    exact ⟨‹_›, rfl⟩
  · cases h

/-! ## The rules -/

section Rules

variable {sets : Sets String} {v : View String}

/-- A first packet is forwarded from the WiFi to the uplink only, for a pair in the set. -/
theorem forward_new (h : forwardChain.eval sets v = .accept) (hnew : v.state = .new) :
    v.iifname ∈ wifi ∧ v.oifname = "eth0" ∧ v.tuple.family = .ipv4 ∧
      sets "auth_clients" (v.etherSaddr, v.tuple.src.addr) = true := by
  obtain ⟨rule, hmem, hfires, hst⟩ := Chain.exists_of_eval h (by decide)
  simp only [forwardChain, List.mem_cons, List.not_mem_nil, or_false] at hmem
  rcases hmem with rfl | rfl | rfl
  · simp [Rule.fires, Match.holds, hnew] at hfires
  · simpa [Rule.fires, Match.holds, Statement.admits, and_assoc] using hfires
  · cases hst

theorem forward_established (h : v.state = .established) : forwardChain.eval sets v = .accept := by
  simp [Chain.eval, forwardChain, Rule.fires, Match.holds, Statement.admits, h]

/-- What a first packet can reach on the machine itself. -/
def InputService (iifname : String) (t : Tuple String) : Prop :=
  iifname = "lo" ∨
    iifname ∈ wifi ∧ t.proto = .udp ∧ (t.dst.port = 67 ∨ t.dst.port = 68 ∨ t.dst.port = 53) ∨
    iifname ∈ wifi ∧ t.proto = .tcp ∧ (t.dst.port = 53 ∨ t.dst.port = 8080) ∨
    t.proto = .tcp ∧ t.dst.port = 443 ∨
    iifname = "eth0" ∧ t.proto = .udp ∧ t.src.port = 67 ∧ t.dst.port = 68

theorem input_new (h : inputChain.eval sets v = .accept) (hnew : v.state = .new) : InputService v.iifname v.tuple := by
  obtain ⟨rule, hmem, hfires, hst⟩ := Chain.exists_of_eval h (by decide)
  simp only [inputChain, List.mem_cons, List.not_mem_nil, or_false] at hmem
  rcases hmem with rfl | rfl | rfl | rfl | rfl | rfl | rfl | rfl | rfl
  · simp [Rule.fires, Match.holds, Statement.admits] at hfires
    exact .inl hfires
  · simp [Rule.fires, Match.holds, hnew] at hfires
  · simp [Rule.fires, Match.holds, Statement.admits] at hfires
    exact .inr (.inl (by tauto))
  · simp [Rule.fires, Match.holds, Statement.admits] at hfires
    exact .inr (.inl (by tauto))
  · simp [Rule.fires, Match.holds, Statement.admits] at hfires
    exact .inr (.inr (.inl (by tauto)))
  · simp [Rule.fires, Match.holds, Statement.admits] at hfires
    exact .inr (.inr (.inl (by tauto)))
  · simp [Rule.fires, Match.holds, Statement.admits] at hfires
    exact .inr (.inr (.inr (.inl hfires)))
  · simp [Rule.fires, Match.holds, Statement.admits] at hfires
    exact .inr (.inr (.inr (.inr (by tauto))))
  · cases hst

end Rules

/-! ## Steps and connections -/

section Steps

variable {c : CafeConfig} {net : Network String} {s s' : Router c} {l : RouterLabel c}

/-- No tuple comes to belong to two connections. -/
theorem Router.step_distinct (hd : Distinct s.conns) (hs : (router c net).step s l = some s') : Distinct s'.conns := by
  cases l with
  | daemon l =>
    obtain ⟨house, -, rfl⟩ := Option.map_eq_some_iff.1 hs
    exact hd
  | receive p port =>
    cases hs
    exact distinct_receive hd
  | send ether t port =>
    obtain ⟨-, rfl⟩ := step_send hs
    exact distinct_send hd
  | forget orig =>
    cases hs
    exact hd.sublist List.filter_sublist

/-- A connection stays until it is forgotten. -/
theorem Router.step_kept {conn : Conn String} (hconn : conn ∈ s.conns) (hl : l ≠ .forget conn.orig)
    (hs : (router c net).step s l = some s') : ∃ conn' ∈ s'.conns, conn.Later conn' := by
  cases l with
  | daemon l =>
    obtain ⟨house, -, rfl⟩ := Option.map_eq_some_iff.1 hs
    exact ⟨conn, hconn, .refl conn⟩
  | receive p port =>
    cases hs
    exact exists_receive hconn
  | send ether t port =>
    obtain ⟨-, rfl⟩ := step_send hs
    exact exists_send hconn
  | forget orig =>
    cases hs
    have hne : conn.orig ≠ orig := fun he => hl (by rw [he])
    exact ⟨conn, List.mem_filter.2 ⟨hconn, by simpa using hne⟩, .refl conn⟩

/-- A connection that is new after a step was opened by a packet from outside that the set lets through, if it is one
between others. -/
theorem Router.step_opened {conn' : Conn String} (hconn' : conn' ∈ s'.conns) (hs : (router c net).step s l = some s') :
    (∃ conn ∈ s.conns, conn.Later conn') ∨ conn'.hook ≠ .forward ∨
      s.authorized (conn'.etherSaddr, conn'.orig.src.addr) = true := by
  cases l with
  | daemon l =>
    obtain ⟨house, -, rfl⟩ := Option.map_eq_some_iff.1 hs
    exact .inl ⟨conn', hconn', .refl conn'⟩
  | receive p port =>
    cases hs
    rcases mem_receive hconn' with h | ho
    · exact .inl h
    · rcases ho.passes with ⟨hhook, -⟩ | ⟨hhook, -, -, heval⟩
      · exact .inr (.inl (by rw [hhook]; decide))
      · obtain ⟨-, -, -, hset⟩ := forward_new heval ho.ctState
        rw [ho.etherSaddr, ho.orig]
        exact .inr (.inr hset)
  | send ether t port =>
    obtain ⟨-, rfl⟩ := step_send hs
    rcases mem_send hconn' with h | ⟨hhook, -⟩
    · exact .inl h
    · exact .inr (.inl (by rw [hhook]; decide))
  | forget orig =>
    cases hs
    exact .inl ⟨conn', (List.mem_filter.1 hconn').1, .refl conn'⟩

end Steps

end Didicafe
