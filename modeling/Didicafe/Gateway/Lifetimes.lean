/-
How long a decision of the packet filter lasts. The set of clients is looked at when a connection is opened, and what is
decided then holds until the connection is forgotten: who is sent to the portal stays there, and who is through stays
through, whatever the daemon does to the set meanwhile.
-/
import Didicafe.Gateway.Admission

namespace Didicafe

open Effect Runs Netfilter

variable {c : CafeConfig} {net : Network String}

/-! ## Tracked connections -/

/-- No tuple belongs to two connections, and the given one is tracked. -/
structure Tracked (conn : Conn String) (s : Router c) : Prop where
  distinct : Distinct s.conns
  kept : ∃ conn' ∈ s.conns, conn.Later conn'

theorem router_distinct {ok : Router c → RouterLabel c → Prop} {s : Router c} (h : Reach (router c net) ok s) :
    Distinct s.conns := by
  refine h.invariant (I := fun s => Distinct s.conns) ?_ ?_
  · rintro s ⟨-, -, -, -, hconns⟩
    rw [hconns]
    exact .nil
  · exact fun s l s' hd _ hs => Router.step_distinct hd hs

/-- A connection is tracked for as long as it is not forgotten. -/
theorem Tracked.path {conn : Conn String} {s s' : Router c} (h : Tracked conn s)
    (hp : Path (router c net) (fun _ l => l ≠ .forget conn.orig) s s') : Tracked conn s' := by
  refine hp.invariant (fun s l s' hs hl hstep => ⟨Router.step_distinct hs.distinct hstep, ?_⟩) h
  obtain ⟨conn', hconn', hlater⟩ := hs.kept
  obtain ⟨conn'', hconn'', hlater'⟩ := Router.step_kept hconn' (by rw [hlater.orig]; exact hl) hstep
  exact ⟨conn'', hconn'', hlater.trans hlater'⟩

/-- Its packets are found to be its own in both directions. -/
theorem Tracked.lookup {conn : Conn String} {s : Router c} (h : Tracked conn s) (dir : Dir) :
    ∃ conn' dir', conn.Later conn' ∧ lookup s.conns (conn.tuple dir) = some (conn', dir') ∧
      conn'.target dir' = conn.target dir := by
  obtain ⟨conn', hconn', hlater⟩ := h.kept
  obtain ⟨dir', hl, htarget⟩ := lookup_tuple h.distinct hconn' dir
  exact ⟨conn', dir', hlater, by rw [← hlater.tuple]; exact hl, by rw [htarget, hlater.target]⟩

/-! ## Clients that are not in the set -/

/-- Where DNS and HTTP of a client end that is not in the set. -/
def captured (t : Tuple String) : Option (Endpoint String) :=
  if t.dst.port = 53 ∧ t.proto ≠ .icmp then some ⟨"10.10.0.1", 53⟩
  else if t.dst.port = 80 ∧ t.proto = .tcp then some ⟨"10.10.0.1", 8080⟩
  else none

theorem captured_cases {t : Tuple String} {portal : Endpoint String} (h : captured t = some portal) :
    t.proto = .udp ∧ t.dst.port = 53 ∧ portal = ⟨"10.10.0.1", 53⟩ ∨
      t.proto = .tcp ∧ t.dst.port = 53 ∧ portal = ⟨"10.10.0.1", 53⟩ ∨
      t.proto = .tcp ∧ t.dst.port = 80 ∧ portal = ⟨"10.10.0.1", 8080⟩ := by
  unfold captured at h
  split at h
  · rename_i hdns
    cases h
    cases hproto : t.proto with
    | udp => exact .inl ⟨rfl, hdns.1, rfl⟩
    | tcp => exact .inr (.inl ⟨rfl, hdns.1, rfl⟩)
    | icmp => exact absurd hproto hdns.2
  · split at h
    · rename_i hhttp
      cases h
      exact .inr (.inr ⟨hhttp.2, hhttp.1, rfl⟩)
    · cases h

section Rules

variable {sets : Sets String} {v : View String} {portal : Endpoint String}

theorem prerouting_captured (hwifi : v.iifname ∈ wifi) (hv4 : v.tuple.family = .ipv4)
    (hset : sets "auth_clients" (v.etherSaddr, v.tuple.src.addr) = false) (hcap : captured v.tuple = some portal) :
    preroutingChain.eval sets v = .dnat portal := by
  rcases captured_cases hcap with ⟨hproto, hport, rfl⟩ | ⟨hproto, hport, rfl⟩ | ⟨hproto, hport, rfl⟩
  all_goals
    simp [Chain.eval, preroutingChain, Rule.fires, Match.holds, Statement.admits, hwifi, hv4, hset,
      hproto, hport]

/-- The input chain lets them through to the portal and to dnsmasq, in every state of their connection. -/
theorem input_captured {t : Tuple String} (hwifi : v.iifname ∈ wifi) (hcap : captured t = some portal)
    (hproto : v.tuple.proto = t.proto) (hdst : v.tuple.dst = portal) : inputChain.eval sets v = .accept := by
  have hlo : v.iifname ≠ "lo" := by
    intro hlo
    rw [hlo] at hwifi
    revert hwifi
    decide
  rcases captured_cases hcap with ⟨hp, -, rfl⟩ | ⟨hp, -, rfl⟩ | ⟨hp, -, rfl⟩
  all_goals
    rw [hp] at hproto
    by_cases hst : v.state = .established ∨ v.state = .related
    · rcases hst with hst | hst
      all_goals
        simp [Chain.eval, inputChain, Rule.fires, Match.holds, Statement.admits, hst, hlo]
    · simp [Chain.eval, inputChain, Rule.fires, Match.holds, Statement.admits, hst, hlo, hwifi, hproto,
        hdst]

end Rules

variable {ok : Router c → RouterLabel c → Prop} {s : Router c} {p : Packet String} {portal : Endpoint String}

/-- The first packet of a DNS or HTTP connection of a client that is not in the set goes to dnsmasq or to the portal,
whatever machine it is for; and so does every later packet of the connection, until the connection is forgotten, also
when the client has been let in meanwhile. -/
theorem captured_for_life (h : Reach (router c net) ok s) (hportal : net.isLocal "10.10.0.1" = true)
    (hsrc : net.isLocal p.tuple.src.addr = false) (hwifi : p.iifname ∈ wifi) (hv4 : p.tuple.family = .ipv4)
    (hq : p.quotes = none) (hnot : s.authorized (p.etherSaddr, p.tuple.src.addr) = false)
    (hcap : captured p.tuple = some portal) (hunknown : lookup s.conns p.tuple = none) {port : Nat}
    (hfree : lookup s.conns { p.tuple with src := portal, dst := ⟨p.tuple.src.addr, port⟩ } = none) :
    s.outcome net p port = .delivered portal ∧
      ∀ s₁ s₂, (router c net).step s (.receive p port) = some s₁ →
        Path (router c net) (fun _ l => l ≠ .forget p.tuple) s₁ s₂ →
        ∀ p' port', p'.iifname ∈ wifi → p'.tuple = p.tuple → p'.quotes = none →
          s₂.outcome net p' port' = .delivered portal := by
  have hlocal : net.isLocal portal.addr = true := by
    rcases captured_cases hcap with ⟨-, -, rfl⟩ | ⟨-, -, rfl⟩ | ⟨-, -, rfl⟩ <;> exact hportal
  have hdst : destination ruleset s.sets s.conns p = some portal := by
    simp only [destination, key_of_quotes hq, hunknown, hq]
    rw [show ruleset.prerouting = preroutingChain from rfl, prerouting_captured hwifi hv4 hnot hcap]
  obtain ⟨hfirst, conn, hconn, horig, htarget⟩ := receive_first port hsrc hq hunknown hdst hlocal
    (input_captured hwifi hcap rfl rfl) hfree
  refine ⟨hfirst, fun s₁ s₂ hstep hpath p' port' hwifi' htuple hq' => ?_⟩
  have hdistinct : Distinct s₁.conns := Router.step_distinct (router_distinct h) hstep
  cases hstep
  rw [← horig] at hpath
  obtain ⟨conn', dir', hlater, hl, htarget'⟩ :=
    (Tracked.path ⟨hdistinct, conn, hconn, .refl conn⟩ hpath).lookup .original
  have htarget' : conn'.target dir' = portal := htarget'.trans htarget
  have hl' : lookup s₂.conns p'.tuple = some (conn', dir') := by rw [htuple, ← horig]; exact hl
  have hpass : (if net.isLocal (conn'.target dir').addr then ruleset.input else ruleset.forward).eval s₂.sets
      (filterView net s₂.conns p' (conn'.target dir')) = .accept := by
    rw [htarget', if_pos hlocal]
    have hproto : p'.tuple.proto = p.tuple.proto := by rw [htuple]
    exact input_captured hwifi' hcap hproto rfl
  have := receive_tracked port' (by rw [htuple]; exact hsrc) hq' hl' hpass
  rw [htarget', if_pos hlocal] at this
  exact this

theorem captured_for_life_manager :
    newRouter.outcome uplink (managerPacket .tcp ⟨"198.51.100.9", 80⟩) 50000 = .delivered ⟨"10.10.0.1", 8080⟩ ∧
      ∀ s₁ s₂, (router .small uplink).step newRouter (.receive (managerPacket .tcp ⟨"198.51.100.9", 80⟩) 50000) =
          some s₁ →
        Path (router .small uplink) (fun _ l => l ≠ .forget (managerPacket .tcp ⟨"198.51.100.9", 80⟩).tuple) s₁ s₂ →
        ∀ p' port', p'.iifname ∈ wifi → p'.tuple = (managerPacket .tcp ⟨"198.51.100.9", 80⟩).tuple →
          p'.quotes = none → s₂.outcome uplink p' port' = .delivered ⟨"10.10.0.1", 8080⟩ :=
  captured_for_life reach_newRouter (by decide) (by decide) (by decide) rfl rfl
    (by decide +kernel) (by decide) rfl rfl

/-! ## Clients that leave the set -/

/-- While a pair is not in the set, it gets no new connection to another machine. But those that it has, and that have
been replied to, go on in both directions until they are forgotten. -/
theorem cut_off (h : Reach (router c net) ok s) {s' : Router c} {pair : String × String} {conn : Conn String}
    (hhook : conn.hook = .forward) (hpair : (conn.etherSaddr, conn.orig.src.addr) = pair) :
    (Path (router c net) (fun s _ => s.authorized pair = false) s s' → conn ∈ s'.conns →
        ∃ conn₀ ∈ s.conns, conn₀.Later conn) ∧
      (conn ∈ s.conns → conn.replied = true → Path (router c net) (fun _ l => l ≠ .forget conn.orig) s s' →
        ∀ p port dir, p.tuple = conn.tuple dir → p.quotes = none →
          s'.outcome net p port = .forwarded (net.route (conn.target dir).addr) (conn.target dir)) := by
  constructor
  · intro hpath hconn
    induction hpath generalizing conn with
    | refl => exact ⟨conn, hconn, .refl conn⟩
    | step hpath hnot hstep ih =>
      rcases Router.step_opened hconn hstep with ⟨conn₁, h₁, hlater⟩ | hne | hauth
      · obtain ⟨conn₀, h₀, hlater₀⟩ := ih (by rw [← hlater.hook]; exact hhook)
          (by rw [← hlater.etherSaddr, ← hlater.orig]; exact hpair) h₁
        exact ⟨conn₀, h₀, hlater₀.trans hlater⟩
      · exact absurd hhook hne
      · rw [hpair, hnot] at hauth
        cases hauth
  · intro hconn hreplied hpath p port dir htuple hq
    -- neither end of it is the machine
    have hlet := (routerSound_of_free h).conns conn hconn
    unfold Let at hlet
    rw [hhook] at hlet
    obtain ⟨-, -, -, hclient, hserver, -⟩ := hlet
    have hsrc : net.isLocal p.tuple.src.addr = false := by
      rw [htuple]
      cases dir
      · exact hclient
      · exact hserver
    have hlocal : net.isLocal (conn.target dir).addr = false := by
      cases dir
      · exact hserver
      · exact hclient
    obtain ⟨conn', dir', hlater, hl, htarget⟩ :=
      (Tracked.path ⟨router_distinct h, conn, hconn, .refl conn⟩ hpath).lookup dir
    have hl : lookup s'.conns p.tuple = some (conn', dir') := by rw [htuple]; exact hl
    have hstate : ctState s'.conns p = .established := by
      unfold ctState
      rw [key_of_quotes hq, hl, hq]
      simp [hlater.replied hreplied]
    have hpass : (if net.isLocal (conn'.target dir').addr then ruleset.input else ruleset.forward).eval s'.sets
        (filterView net s'.conns p (conn'.target dir')) = .accept := by
      rw [htarget, hlocal]
      exact forward_established hstate
    have := receive_tracked port hsrc hq hl hpass
    rw [htarget, hlocal] at this
    exact this

/-- The first packet of the manager's device to a web server, and the answer. -/
def webPacket : Packet String := managerPacket .tcp ⟨"198.51.100.9", 443⟩

def webAnswer : Packet String :=
  ⟨"eth0", "02:00:00:00:00:99", ⟨.ipv4, .tcp, ⟨"198.51.100.9", 443⟩, ⟨"203.0.113.7", 40000⟩⟩, none⟩

/-- Their connection. -/
def webConn : Conn String := ⟨.forward, "wlan0", manager.1, "eth0", webPacket.tuple, webAnswer.tuple, true⟩

/-- The device gets an hour with a code, and the packets pass; then an admin ends its session. -/
def hourCutShort : List (RouterLabel .small) :=
  (adminDoes (.createPlan "1 h" 60 500) :: performs 0 2 ++
      adminDoes (.generateTokens "counter" 1 1 inTurn) :: performs 1 2 ++
      .start (.portalAuth "CAFE-AAAA-AAAA" manager.1 manager.2) :: performs 2 5).map .daemon ++
    .receive webPacket 50000 :: .receive webAnswer 50000 ::
    (adminDoes (.disconnectSession 1) :: performs 3 4).map .daemon

/-- They pass once more in both directions, when the pair has been taken out of the set. -/
theorem cut_off_webConn : ∃ s s', (router .small uplink).trace newRouter hourCutShort = some s ∧
    (router .small uplink).trace s [.receive webPacket 50000, .receive webAnswer 50000] = some s' ∧
      s.authorized manager = false ∧ webConn ∈ s'.conns ∧ (∃ conn₀ ∈ s.conns, conn₀.Later webConn) ∧
        s'.outcome uplink webPacket 50000 = .forwarded "eth0" ⟨"198.51.100.9", 443⟩ ∧
          s'.outcome uplink webAnswer 50000 = .forwarded "wlan0" ⟨"10.10.0.5", 40000⟩ := by
  have hrun : ((router .small uplink).trace newRouter hourCutShort).any (fun s =>
      s.authorized manager = false ∧ webConn ∈ s.conns ∧
        ((router .small uplink).trace s [.receive webPacket 50000, .receive webAnswer 50000]).any fun s' =>
          webConn ∈ s'.conns) = true := by decide +kernel
  obtain ⟨s, hs, hrun⟩ := (Option.any_eq_true _ _).1 hrun
  obtain ⟨hnot, hconn, hrun⟩ := of_decide_eq_true hrun
  obtain ⟨s', hs', hconn'⟩ := (Option.any_eq_true _ _).1 hrun
  have hreach : Reach (router .small uplink) Free s := Machine.reach_trace reach_newRouter hs
  -- the packets leave the set alone, and forget nothing
  have hwithout : Path (router .small uplink) (fun s _ => s.authorized manager = false) s s' :=
    Machine.path_along (t := [.receive webPacket 50000, .receive webAnswer 50000])
      ⟨hnot, fun _ h => by cases h; exact ⟨hnot, fun _ _ => trivial⟩⟩ hs'
  have hkept : Path (router .small uplink) (fun _ l => l ≠ .forget webConn.orig) s s' :=
    Machine.path_trace_of (t := [.receive webPacket 50000, .receive webAnswer 50000]) (fun l hl _ => by
      rcases List.mem_cons.1 hl with rfl | hl
      · nofun
      · rw [List.mem_singleton.1 hl]
        nofun) hs'
  have hconn' : webConn ∈ s'.conns := of_decide_eq_true hconn'
  have hhook : webConn.hook = .forward := rfl
  have hpair : (webConn.etherSaddr, webConn.orig.src.addr) = manager := rfl
  have passes := (cut_off hreach hhook hpair).2 hconn rfl hkept
  exact ⟨s, s', hs, hs', hnot, hconn', (cut_off hreach hhook hpair).1 hwithout hconn',
    passes webPacket 50000 .original rfl rfl, passes webAnswer 50000 .reply rfl rfl⟩

end Didicafe
