/-
Requests in any number at once over the shared state, operation by operation, with a journal of what they do. The rest
of the daemon may change the database, the firewall and the wall clock in any way. What a handler has learnt before it
goes on is in the part of the journal that is its own.
-/
import Didicafe.Lib.Journal
import Didicafe.Limiter.Sections
import Didicafe.Model.AppState

namespace Didicafe

open Effect Runs

/-! ## The machine -/

/-- Time passes, or the rest of the daemon changes the world. -/
inductive Elsewhere where
  | elapse (nanos : Nat)
  | world (w : World)

def Elsewhere.apply : Elsewhere → AppState → AppState
  | .elapse nanos, s => { s with clock := s.clock + nanos }
  | .world w, s => { s with world := w }

def frontDesk (c : FrontConfig) : Workshop (FrontCall c) Surroundings Elsewhere Access Access.Out Answer AppState where
  program := FrontCall.program
  handler := AppState.exec
  other := Elsewhere.apply

abbrev FrontJournal (c : FrontConfig) := Journal (FrontCall c) Access Access.Out Answer AppState

abbrev FrontEvent (c : FrontConfig) := Event (FrontCall c) AppState Access Access.Out

abbrev FrontTurn (c : FrontConfig) := Turn (FrontCall c) Surroundings Elsewhere

/-- The daemon has been started with this state. -/
def Started (c : FrontConfig) (s : AppState) : Prop :=
  ∃ clock world, s = .new c.rateLimit c.sessionTimeoutSeconds clock world

/-- The runs of the front desk. -/
abbrev frontRuns (c : FrontConfig) : Machine (FrontJournal c) (FrontTurn c) := (frontDesk c).machine (Started c)

/-! ## Answers -/

/-- An answer that some state can give. -/
def possible : Answers Access Access.Out := fun op r => ∃ env s, r = (AppState.exec env op s).1

theorem possible_exec (env : Surroundings) (op : Access) (s : AppState) : possible op (AppState.exec env op s).1 :=
  ⟨env, s, rfl⟩

theorem checkBan_ne_allowed (l : RateLimiter) (now : Nat) (ip : IpAddr) : l.checkBan now ip ≠ some .allowed := by
  unfold RateLimiter.checkBan
  split
  · split
    · rintro ⟨⟩
    · rintro ⟨⟩
  · rintro ⟨⟩

theorem possible_checkBan {door : Door} {now : Nat} {ip : IpAddr} {r : Option RateLimitResult}
    (h : possible (.limiter door (.checkBan now ip)) r) : r ≠ some .allowed := by
  obtain ⟨env, s, rfl⟩ := h
  exact checkBan_ne_allowed _ now ip

/-! ## What handlers learn -/

section Learn

variable {c : FrontConfig} {past past' : Past Access Access.Out} {ip : IpAddr} {mac key submitted : String}

/-- One of the neighbour tables had the MAC address for the address. -/
def Found (c : FrontConfig) (ip : IpAddr) (mac : String) (past : Past Access Access.Out) : Prop :=
  (∃ content, ⟨.procNetArp, content⟩ ∈ past ∧ lookupProcNetArp c.lower content ip.display = some mac) ∨
    (∃ stdout, ⟨.ipNeigh ip.display, stdout⟩ ∈ past ∧ lookupIpNeigh c.lower stdout = some mac) ∨
    ∃ stdout, ⟨.arpCommand, stdout⟩ ∈ past ∧ lookupArpCommand c.lower stdout ip.display = some mac

/-- The request came with the token of its form. -/
def Vouched (c : FrontConfig) (door : Door) (key submitted : String) (past : Past Access Access.Out) : Prop :=
  ⟨.csrf door (.validate (c.lower key) submitted), true⟩ ∈ past

/-- The limiter has let the attempt pass. -/
def Allowed (door : Door) (ip : IpAddr) (past : Past Access Access.Out) : Prop :=
  ∃ now, ⟨.limiter door (.record now ip), Except.ok RateLimitResult.allowed⟩ ∈ past

theorem Found.later (h : Found c ip mac past) (hp : past <:+ past') : Found c ip mac past' := by
  rcases h with ⟨x, hx, hm⟩ | ⟨x, hx, hm⟩ | ⟨x, hx, hm⟩
  · exact .inl ⟨x, hp.mem hx, hm⟩
  · exact .inr (.inl ⟨x, hp.mem hx, hm⟩)
  · exact .inr (.inr ⟨x, hp.mem hx, hm⟩)

theorem Vouched.later {door : Door} (h : Vouched c door key submitted past) (hp : past <:+ past') :
    Vouched c door key submitted past' := hp.mem h

theorem Allowed.later {door : Door} (h : Allowed door ip past) (hp : past <:+ past') : Allowed door ip past' := by
  obtain ⟨now, h⟩ := h
  exact ⟨now, hp.mem h⟩

/-! ## Calls under a guard -/

theorem Front.world_bind {α β : Type} (p : Prog Op Op.Out α) (f : α → Prog Op Op.Out β) :
    Front.world (p >>= f) = Front.world p >>= fun a => Front.world (f a) := Prog.embed_bind p f

variable {G : Guard Access Access.Out}

theorem keeps_lookupMac (hG : ∀ past' op, past <:+ past' → op = .procNetArp ∨ op = .ipNeigh ip.display ∨
      op = .arpCommand → G past' op) :
    (Front.lookupMac c ip).Keeps possible G
      (fun r past' => past <:+ past' ∧ ∀ mac, r = some mac → Found c ip mac past') past := by
  have h₁ {x : Sigma Access.Out} : past <:+ x :: past := List.suffix_cons ..
  refine ⟨hG _ _ (List.suffix_refl _) (.inl rfl), fun content _ => ?_⟩
  cases hc : lookupProcNetArp c.lower content ip.display with
  | some mac =>
    simp only [Prog.bind, hc]
    refine ⟨h₁, fun m hm => ?_⟩
    cases hm
    exact .inl ⟨content, List.mem_cons_self .., hc⟩
  | none =>
    simp only [Prog.bind, hc]
    refine ⟨hG _ _ h₁ (.inr (.inl rfl)), fun neigh _ => ?_⟩
    cases hn : lookupIpNeigh c.lower neigh with
    | some mac =>
      simp only [Prog.bind, hn]
      refine ⟨h₁.trans (List.suffix_cons ..), fun m hm => ?_⟩
      cases hm
      exact .inr (.inl ⟨neigh, List.mem_cons_self .., hn⟩)
    | none =>
      simp only [Prog.bind, hn]
      refine ⟨hG _ _ (h₁.trans (List.suffix_cons ..)) (.inr (.inr rfl)), fun arp _ => ?_⟩
      exact ⟨(h₁.trans (List.suffix_cons ..)).trans (List.suffix_cons ..), fun m hm =>
        .inr (.inr ⟨arp, List.mem_cons_self .., hm⟩)⟩

theorem keeps_clientInfo (hG : ∀ past' op, past <:+ past' → op = .procNetArp ∨ op = .ipNeigh ip.display ∨
      op = .arpCommand → G past' op) :
    (Front.clientInfo c ip).Keeps possible G
      (fun r past' => past <:+ past' ∧ ∀ mac, r = .ok mac → Found c ip mac past' ∧ isValidMac mac = true) past := by
  refine (keeps_lookupMac hG).bind fun r past' h => ?_
  refine ⟨h.1, fun mac hmac => ?_⟩
  obtain ⟨harp, hvalid⟩ := validateMacOrErr_ok hmac
  exact ⟨h.2 mac harp, hvalid⟩

theorem keeps_validate {door : Door} {P : Past Access Access.Out → Prop} (hP : P past)
    (hG : G past (.csrf door (.validate (c.lower key) submitted))) :
    (Front.validate c door key submitted).Keeps possible G
      (fun r past' => past <:+ past' ∧
        (r = true → After P ⟨.csrf door (.validate (c.lower key) submitted), true⟩ past')) past := by
  refine ⟨hG, fun ok _ => ⟨List.suffix_cons .., fun hok => ?_⟩⟩
  cases (hok : ok = true)
  exact .now hP _

theorem keeps_checkAndRecord {door : Door} {P : Past Access Access.Out → Prop}
    (hP : ∀ past', past <:+ past' → P past') (hG : ∀ past' op, past <:+ past' → G past' (.limiter door op)) :
    (Front.limiter door (checkAndRecord ip)).Keeps possible G
      (fun r past' => past <:+ past' ∧ (r = .ok .allowed →
        ∃ now, After P ⟨.limiter door (.record now ip), Except.ok RateLimitResult.allowed⟩ past')) past := by
  have h₁ {x : Sigma Access.Out} {past' : Past Access Access.Out} (h : past <:+ past') : past <:+ x :: past' :=
    h.trans (List.suffix_cons ..)
  refine ⟨hG _ _ (List.suffix_refl _), fun now _ => ⟨hG _ _ (h₁ (List.suffix_refl _)), fun ban hban => ?_⟩⟩
  cases ban with
  | some result =>
    refine ⟨h₁ (h₁ (List.suffix_refl _)), fun hr => ?_⟩
    cases (hr : Except.ok result = .ok .allowed)
    exact absurd rfl (possible_checkBan hban)
  | none =>
    have h₂ {x y : Sigma Access.Out} : past <:+ x :: y :: past := h₁ (h₁ (List.suffix_refl _))
    refine ⟨hG _ _ h₂, fun _ _ => ⟨hG _ _ (h₁ h₂), fun result _ => ⟨h₁ (h₁ h₂), fun hr => ?_⟩⟩⟩
    cases (hr : result = .ok .allowed)
    exact ⟨now, .now (hP _ (h₁ h₂)) _⟩

theorem keeps_settings (hG : G past (.world (.sql .getAllSettings))) :
    (Front.world (portalConfigFromDb c.portal)).Keeps possible G (fun _ past' => past <:+ past') past := by
  refine ⟨hG, fun r _ => ?_⟩
  cases r <;> exact List.suffix_cons ..

/-- A program of operations that the guard admits anyway. -/
theorem keeps_free {α : Type} {p : Front α} {K : Access → Prop} (hK : ∀ past' op, past <:+ past' → K op → G past' op)
    (h : p.Uses K) : p.Keeps possible G (fun _ _ => True) past :=
  (Prog.keeps_of_uses hK h).mono fun _ _ _ => trivial

end Learn

/-! ## What the pages use -/

section Uses

variable {K : Access → Prop} {c : FrontConfig} {door : Door} {key mac : String} {draws : FrontDraws} {ip : IpAddr}

/-- The operations that store a new token of a form. -/
def Renews (c : FrontConfig) (door : Door) (key : String) : Access → Prop
  | .csrf d .now => d = door
  | .csrf d (.write k _ _) => d = door ∧ k = c.lower key
  | _ => False

theorem renews_generate : (Front.generate c door key draws).Uses (Renews c door key) :=
  Prog.Uses.bind (Prog.uses_embed ⟨rfl, fun _ => ⟨⟨rfl, rfl⟩, fun _ => trivial⟩⟩) fun _ => trivial

theorem uses_lookupMac (h : K .procNetArp ∧ K (.ipNeigh ip.display) ∧ K .arpCommand) :
    (Front.lookupMac c ip).Uses K := by
  refine ⟨h.1, fun content => ?_⟩
  cases hc : lookupProcNetArp c.lower content ip.display with
  | some mac =>
    simp only [Prog.bind, hc]
    trivial
  | none =>
    simp only [Prog.bind, hc]
    refine ⟨h.2.1, fun neigh => ?_⟩
    cases hn : lookupIpNeigh c.lower neigh with
    | some mac =>
      simp only [Prog.bind, hn]
      trivial
    | none =>
      simp only [Prog.bind, hn]
      exact ⟨h.2.2, fun _ => trivial⟩

theorem uses_sessions {α : Type} (x : Web α) (h : ∀ op, K (.sessions op)) : (Front.sessions x).Uses K :=
  Prog.uses_embed (Prog.uses_of_forall h x.run)

theorem uses_portalConfigFromDb (h : K (.world (.sql .getAllSettings))) :
    (Front.world (portalConfigFromDb c.portal)).Uses K := by
  refine Prog.uses_embed ⟨h, fun r => ?_⟩
  cases r <;> trivial

theorem renews_portalError {error : String} : (Front.portalError c error mac draws).Uses fun op =>
    Renews c .portal mac op ∨ op = .world (.sql .getAllSettings) :=
  (renews_generate.mono fun _ => .inl).bind fun _ => (uses_portalConfigFromDb (.inr rfl)).bind fun _ => trivial

theorem renews_loginError {status : Nat} {retryAfter : Option Nat} {error : String} {portal : PortalSection} :
    (Front.loginError c status retryAfter error ip portal draws).Uses (Renews c .login ip.display) :=
  renews_generate.bind fun _ => trivial

end Uses

end Didicafe
