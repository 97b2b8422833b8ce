/-
What the router lets through, in every run of the daemon and the packet filter together. What goes from the WiFi to the
uplink is for address pairs that a code of the house, or an admin's login, has let in; the machine itself is reached
only where the input chain has a rule for it.
-/
import Didicafe.Gateway.Router

namespace Didicafe

open Effect Runs Netfilter

variable {c : CafeConfig} {net : Network String} {P : String × String → Prop} {C : String → Prop}

/-! ## The connections -/

/-- A connection that the rules have let through: to a service of the machine, from it, or from a WiFi client in the
class to the uplink. -/
def Let (net : Network String) (P : String × String → Prop) (conn : Conn String) : Prop :=
  match conn.hook with
  | .input =>
    net.isLocal conn.reply.src.addr = true ∧ InputService conn.iifname { conn.orig with dst := conn.reply.src }
  | .output => net.isLocal conn.orig.src.addr = true
  | .forward => conn.iifname ∈ wifi ∧ conn.oifname = "eth0" ∧ conn.orig.family = .ipv4 ∧
      net.isLocal conn.orig.src.addr = false ∧ net.isLocal conn.reply.src.addr = false ∧
      P (conn.etherSaddr, conn.orig.src.addr)

theorem Let.later {conn conn' : Conn String} (h : Let net P conn) (hl : conn.Later conn') : Let net P conn' := by
  rcases hl with rfl | rfl <;> exact h

variable (net P C) in
/-- All is attributed, and the connections are let through. -/
structure RouterSound (s : Router c) : Prop where
  house : HouseAttributed P C s.house
  conns : ∀ conn ∈ s.conns, Let net P conn

variable (P C) in
def RouterLabel.Admitted : RouterLabel c → Prop
  | .daemon l => l.Admitted P C
  | _ => True

theorem Router.authorized_iff {s : Router c} {pair : String × String} :
    s.authorized pair = true ↔ s.house.shared.set.Mem s.house.shared.now pair := by
  unfold Router.authorized
  exact decide_eq_true_iff

theorem RouterSound.authorized {s : Router c} (h : RouterSound net P C s) {pair : String × String}
    (hp : s.authorized pair = true) : P pair := by
  obtain ⟨e, he, -⟩ := Router.authorized_iff.1 hp
  exact h.house.world.set _ _ he

/-- A packet opens connections that are let through only. -/
theorem RouterSound.opened {s : Router c} (h : RouterSound net P C s) {p : Packet String} {conn : Conn String}
    (ho : Netfilter.Opened ruleset net s.sets s.conns p conn) : Let net P conn := by
  have hnew : (filterView net s.conns p conn.reply.src).state = .new := ho.ctState
  unfold Let
  rcases ho.passes with ⟨hhook, hlocal, heval⟩ | ⟨hhook, hlocal, hoif, heval⟩
  · rw [hhook, ho.iifname, ho.orig]
    exact ⟨hlocal, input_new heval hnew⟩
  · obtain ⟨hiif, hoif', hfamily, hset⟩ := forward_new heval hnew
    have hlo : p.iifname ≠ "lo" := by
      intro hlo
      have : "lo" ∈ wifi := hlo ▸ hiif
      revert this
      decide
    have hroute : net.route conn.reply.src.addr = "eth0" := by
      simpa [filterView, hlocal] using hoif'
    rw [hhook, ho.iifname, ho.orig, ho.etherSaddr, hoif]
    exact ⟨hiif, hroute, hfamily, ho.outside hlo, hlocal, h.authorized hset⟩

theorem RouterSound.step {s s' : Router c} {l : RouterLabel c} (h : RouterSound net P C s) (hl : l.Admitted P C)
    (hs : (router c net).step s l = some s') : RouterSound net P C s' := by
  cases l with
  | daemon l =>
    obtain ⟨house, hh, rfl⟩ := Option.map_eq_some_iff.1 hs
    exact ⟨h.house.step hl hh, h.conns⟩
  | receive p port =>
    cases hs
    refine ⟨h.house, fun conn hconn => ?_⟩
    rcases mem_receive hconn with ⟨conn₀, h₀, hlater⟩ | hopened
    · exact (h.conns conn₀ h₀).later hlater
    · exact h.opened hopened
  | send ether t port =>
    obtain ⟨hlocal, rfl⟩ := Router.step_send hs
    refine ⟨h.house, fun conn hconn => ?_⟩
    rcases mem_send hconn with ⟨conn₀, h₀, hlater⟩ | ⟨hhook, horig⟩
    · exact (h.conns conn₀ h₀).later hlater
    · unfold Let
      rw [hhook, horig]
      exact hlocal
  | forget orig =>
    cases hs
    exact ⟨h.house, fun conn hconn => h.conns conn (List.mem_filter.1 hconn).1⟩

theorem routerSound_of_reach {s : Router c} (h : Reach (router c net) (fun _ l => l.Admitted P C) s) :
    RouterSound net P C s := by
  apply h.invariant
  · rintro s ⟨⟨-, hthreads⟩, htoken, hsession, hset, hconns⟩
    refine ⟨⟨⟨fun r hr => ?_, fun k hk => ?_, fun k e hk => ?_⟩, fun t ht => ?_⟩, fun conn hconn => ?_⟩
    · rw [htoken] at hr; cases hr
    · rw [hsession] at hk; cases hk
    · rw [hset k] at hk; cases hk
    · rw [hthreads] at ht; cases ht
    · rw [hconns] at hconn; cases hconn
  · exact fun s l s' hi hl hs => hi.step hl hs

theorem RouterLabel.admitted_true (l : RouterLabel c) : l.Admitted (fun _ => True) (fun _ => True) := by
  rcases l with (k | ⟨i, fault⟩ | nanos) | _ | _ | _
  · rcases k with _ | _ | _ | _ | _
    · rename_i r
      cases r with
      | login => exact fun _ _ _ => trivial
      | action => exact fun _ _ _ => trivial
    · exact .inl trivial
    · trivial
    · trivial
    · trivial
  all_goals trivial

/-- In every run the connections are let through, whoever is let in. -/
theorem routerSound_of_free {ok : Router c → RouterLabel c → Prop} {s : Router c} (h : Reach (router c net) ok s) :
    RouterSound net (fun _ => True) (fun _ => True) s :=
  routerSound_of_reach (h.mono fun _ l _ => l.admitted_true)

/-! ## A first evening -/

/-- A router on the WiFi network and on the uplink, and a client at `10.10.0.5`. -/
def uplink : Network String where
  isLocal a := a = "10.10.0.1" ∨ a = "203.0.113.7"
  route a := if a = "10.10.0.5" then "wlan0" else "eth0"
  address _ _ := "203.0.113.7"

def manager : String × String := ("02:00:00:00:00:05", "10.10.0.5")

/-- A packet of the manager's device. -/
def managerPacket (proto : Proto) (dst : Endpoint String) : Packet String :=
  ⟨"wlan0", manager.1, ⟨.ipv4, proto, ⟨manager.2, 40000⟩, dst⟩, none⟩

/-- The manager logs in. -/
def loginLabels : List (RouterLabel .small) :=
  [.daemon (.start (.admin (.login "admin" true (some manager)))), .daemon (.advance 0 none), .daemon (.advance 0 none)]

def newRouter : Router .small := ⟨newHouse, []⟩

def managedRouter : Router .small := ((router .small uplink).trace newRouter loginLabels).getD newRouter

theorem init_newRouter : (router .small uplink).init newRouter := ⟨⟨rfl, rfl⟩, rfl, rfl, fun _ => rfl, rfl⟩

theorem reach_newRouter : Reach (router .small uplink) Free newRouter := .start init_newRouter

theorem reach_managedRouter :
    Reach (router .small uplink) (fun _ l => l.Admitted (· = manager) fun _ => False) managedRouter := by
  refine Machine.reach_trace_of (.start init_newRouter) (t := loginLabels) (fun l hl s => ?_) rfl
  simp only [loginLabels, List.mem_cons, List.not_mem_nil, or_false] at hl
  rcases hl with rfl | rfl | rfl
  · exact fun _ k hk => (Option.some.inj hk).symm
  · trivial
  · trivial

/-! ## The packets -/

/-- A packet from outside belongs to a connection with another machine, or is for a service of this one, or answers one
of its own connections: nobody else sends packets from its addresses. -/
theorem RouterSound.direction {s : Router c} (hs : RouterSound net P C s) {t : Tuple String} {conn : Conn String}
    {dir : Dir} (hl : lookup s.conns t = some (conn, dir)) (hsrc : net.isLocal t.src.addr = false) :
    conn.hook = .forward ∨ conn.hook = .input ∧ dir = .original ∨ conn.hook = .output ∧ dir = .reply := by
  have hlet := hs.conns conn (lookup_mem hl)
  unfold Let at hlet
  cases hhook : conn.hook with
  | forward => exact .inl rfl
  | input =>
    rw [hhook] at hlet
    cases dir with
    | original => exact .inr (.inl ⟨rfl, rfl⟩)
    | reply =>
      rw [← (lookup_reply hl).2] at hsrc
      exact absurd (hlet.1.symm.trans hsrc) (by decide)
  | output =>
    rw [hhook] at hlet
    cases dir with
    | original =>
      rw [← (lookup_original hl).2] at hsrc
      exact absurd (hlet.symm.trans hsrc) (by decide)
    | reply => exact .inr (.inr ⟨rfl, rfl⟩)

section Packet

variable {s : Router c} {p : Packet String} {dst : Endpoint String}

theorem key_of_quotes (hq : p.quotes = none) : p.key = p.tuple := by
  unfold Packet.key
  rw [hq]
  rfl

theorem destination_known (hq : p.quotes = none) {conn : Conn String} {dir : Dir}
    (hl : lookup s.conns p.tuple = some (conn, dir)) :
    destination ruleset s.sets s.conns p = some (conn.target dir) := by
  simp only [destination, key_of_quotes hq, hl]

theorem filterView_unknown (hq : p.quotes = none) (hl : lookup s.conns p.tuple = none) :
    (filterView net s.conns p dst).state = .new := by
  simp only [filterView, ctState, key_of_quotes hq, hl, hq]

/-- Every packet that the router passes on has a reason: it comes from a WiFi client that is in the set at that moment,
on its way to the uplink, or it belongs to a connection that such a client has opened. Either client is in the class
that codes of the house and logins of admins have let in. -/
theorem forwarded_attributed (h : Reach (router c net) (fun _ l => l.Admitted P C) s) {port : Nat} {oifname : String}
    (hp : p.iifname ≠ "lo") (hq : p.quotes = none) (ho : s.outcome net p port = .forwarded oifname dst) :
    (p.iifname ∈ wifi ∧ oifname = "eth0" ∧ p.tuple.family = .ipv4 ∧
        s.authorized (p.etherSaddr, p.tuple.src.addr) = true ∧ P (p.etherSaddr, p.tuple.src.addr)) ∨
      ∃ conn ∈ s.conns, conn.hook = .forward ∧ (p.tuple = conn.orig ∨ p.tuple = conn.reply) ∧
        P (conn.etherSaddr, conn.orig.src.addr) := by
  have hs := routerSound_of_reach h
  obtain ⟨hout, hdst, hlocal, rfl, heval⟩ := receive_forwarded ho
  cases hl : lookup s.conns p.tuple with
  | none =>
    obtain ⟨hiif, hoif, hfamily, hset⟩ := forward_new heval (filterView_unknown hq hl)
    exact .inl ⟨hiif, by simpa [filterView, hlocal] using hoif, hfamily, hset, hs.authorized hset⟩
  | some x =>
    obtain ⟨conn, dir⟩ := x
    have hlet := hs.conns conn (lookup_mem hl)
    rw [destination_known hq hl] at hdst
    cases hdst
    unfold Let at hlet
    rcases hs.direction hl (hout hp) with hhook | ⟨hhook, rfl⟩ | ⟨hhook, rfl⟩
    · rw [hhook] at hlet
      refine .inr ⟨conn, lookup_mem hl, hhook, ?_, hlet.2.2.2.2.2⟩
      cases dir with
      | original => exact .inl (lookup_original hl).2.symm
      | reply => exact .inr (lookup_reply hl).2.symm
    · rw [hhook] at hlet
      exact absurd (hlet.1.symm.trans hlocal) (by decide)
    · rw [hhook] at hlet
      exact absurd (hlet.symm.trans hlocal) (by decide)

theorem forwarded_attributed_manager :
    managedRouter.outcome uplink (managerPacket .tcp ⟨"198.51.100.9", 443⟩) 50000 =
      .forwarded "eth0" ⟨"198.51.100.9", 443⟩ ∧
    (("wlan0" ∈ wifi ∧ "eth0" = "eth0" ∧ Family.ipv4 = .ipv4 ∧ managedRouter.authorized manager = true ∧
        manager = manager) ∨
      ∃ conn ∈ managedRouter.conns, conn.hook = .forward ∧
        ((managerPacket .tcp ⟨"198.51.100.9", 443⟩).tuple = conn.orig ∨
          (managerPacket .tcp ⟨"198.51.100.9", 443⟩).tuple = conn.reply) ∧
        (conn.etherSaddr, conn.orig.src.addr) = manager) := by
  have ho : managedRouter.outcome uplink (managerPacket .tcp ⟨"198.51.100.9", 443⟩) 50000 =
      .forwarded "eth0" ⟨"198.51.100.9", 443⟩ := by decide +kernel
  exact ⟨ho, forwarded_attributed reach_managedRouter (by decide) rfl ho⟩

/-- Every packet that reaches the machine itself is for a service that the input chain opens to the interface it comes
from, or it belongs to a connection with such a service, or to one of the machine's own. -/
theorem delivered_service {ok : Router c → RouterLabel c → Prop} (h : Reach (router c net) ok s) {port : Nat}
    (hq : p.quotes = none) (ho : s.outcome net p port = .delivered dst) :
    InputService p.iifname { p.tuple with dst := dst } ∨
      ∃ conn ∈ s.conns,
        (conn.hook = .input ∧ p.tuple = conn.orig ∧ dst = conn.reply.src ∧
          InputService conn.iifname { conn.orig with dst := conn.reply.src }) ∨
        (conn.hook = .output ∧ p.tuple = conn.reply ∧ dst = conn.orig.src) := by
  have hs := routerSound_of_free h
  obtain ⟨hout, hdst, hlocal, heval⟩ := receive_delivered ho
  by_cases hp : p.iifname = "lo"
  · exact .inl (.inl hp)
  cases hl : lookup s.conns p.tuple with
  | none => exact .inl (input_new heval (filterView_unknown hq hl))
  | some x =>
    obtain ⟨conn, dir⟩ := x
    have hlet := hs.conns conn (lookup_mem hl)
    rw [destination_known hq hl] at hdst
    cases hdst
    unfold Let at hlet
    refine .inr ⟨conn, lookup_mem hl, ?_⟩
    rcases hs.direction hl (hout hp) with hhook | ⟨hhook, rfl⟩ | ⟨hhook, rfl⟩
    · -- neither end of it is the machine
      rw [hhook] at hlet
      cases dir with
      | original => exact absurd (hlocal.symm.trans hlet.2.2.2.2.1) (by decide)
      | reply => exact absurd (hlocal.symm.trans hlet.2.2.2.1) (by decide)
    · rw [hhook] at hlet
      exact .inl ⟨hhook, (lookup_original hl).2.symm, rfl, hlet.2⟩
    · exact .inr ⟨hhook, (lookup_reply hl).2.symm, rfl⟩

theorem delivered_service_admin : newRouter.outcome uplink (managerPacket .tcp ⟨"10.10.0.1", 443⟩) 50000 =
      .delivered ⟨"10.10.0.1", 443⟩ ∧
    (InputService "wlan0" (managerPacket .tcp ⟨"10.10.0.1", 443⟩).tuple ∨
      ∃ conn ∈ newRouter.conns,
        (conn.hook = .input ∧ (managerPacket .tcp ⟨"10.10.0.1", 443⟩).tuple = conn.orig ∧
          (⟨"10.10.0.1", 443⟩ : Endpoint String) = conn.reply.src ∧
          InputService conn.iifname { conn.orig with dst := conn.reply.src }) ∨
        (conn.hook = .output ∧ (managerPacket .tcp ⟨"10.10.0.1", 443⟩).tuple = conn.reply ∧
          (⟨"10.10.0.1", 443⟩ : Endpoint String) = conn.orig.src)) := by
  have ho : newRouter.outcome uplink (managerPacket .tcp ⟨"10.10.0.1", 443⟩) 50000 = .delivered ⟨"10.10.0.1", 443⟩ := by
    decide +kernel
  exact ⟨ho, delivered_service reach_newRouter rfl ho⟩

end Packet

end Didicafe
