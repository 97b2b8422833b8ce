/-
The portal form. Whatever the other requests do in between, a posted form reaches the database with its code only when
it has the token of the form that was last given to its client, when the limiter lets it pass, and when the code has the
format; and it changes something only for a token found there, which is for this client then.
-/
import Didicafe.Front.Desk
import Didicafe.Model.Operations

namespace Didicafe

open Effect Runs

variable {c : FrontConfig} {ip : IpAddr} {form : AuthForm} {draws : FrontDraws} {mac : String} {token : Token}
  {past past' : Past Access Access.Out}

/-! ## The guard -/

/-- The code that a form is about. -/
def AuthForm.code (c : FrontConfig) (form : AuthForm) : String := normalizeCode c.upper form.token

/-- The limiter has let an attempt of the client pass, after the form was found to be its own, after the neighbour
tables had its MAC address. -/
def Passed (c : FrontConfig) (ip : IpAddr) (form : AuthForm) (mac : String) (past : Past Access Access.Out) : Prop :=
  ∃ now, After (After (Found c ip mac) ⟨.csrf .portal (.validate (c.lower mac) form.csrfToken), true⟩)
    ⟨.limiter .portal (.record now ip), Except.ok RateLimitResult.allowed⟩ past

/-- The form may be looked at: the client is known, the form is its own, and the attempt is not one too many. -/
structure Entitled (c : FrontConfig) (ip : IpAddr) (form : AuthForm) (mac : String) (past : Past Access Access.Out) :
    Prop where
  valid : isValidMac mac = true
  passed : Passed c ip form mac past
  format : validateTokenFormat c.token (form.code c) = .ok (.ok ())

/-- The lookup of a code has found a token that can be used. -/
structure LookedUp (code : String) (token : Token) (past : Past Access Access.Out) : Prop where
  found : ⟨.world (.sql (.getTokenByCode code)), Except.ok (some token)⟩ ∈ past
  status : token.status = .unused ∨ token.status = .active

/-- The operation serves to give the pair the time of the token, and to take it from the pair that had it. -/
inductive Serves (mac ip : String) (token : Token) (past : Past Access Access.Out) : Op → Prop where
  | utcNow : Serves mac ip token past .utcNow
  | letIn (timeoutSecs : Nat) : Serves mac ip token past (.nft (.addElement mac ip timeoutSecs))
  | open (expiresAt : String) : Serves mac ip token past (.sql (.createSession token.id mac ip expiresAt))
  | redeem (expiresAt : String) : Serves mac ip token past (.sql (.redeemToken token.id expiresAt))
  | holder : Serves mac ip token past (.sql (.getActiveSessionByToken token.id))
  | dismiss {old : Session}
    (h : ⟨.world (.sql (.getActiveSessionByToken token.id)), Except.ok (some old)⟩ ∈ past) :
    Serves mac ip token past (.nft (.deleteElement old.macAddress old.ipAddress))
  | close {old : Session}
    (h : ⟨.world (.sql (.getActiveSessionByToken token.id)), Except.ok (some old)⟩ ∈ past) :
    Serves mac ip token past (.sql (.disconnectSession old.id))

/-- What a request of the portal may do at all, for what it may do to the database and the firewall: it stores form
tokens for its client only. -/
def portalGuard (c : FrontConfig) (ip : IpAddr) (world : Past Access Access.Out → Op → Prop) :
    Guard Access Access.Out :=
  fun past op =>
    match op with
    | .world op => world past op
    | .csrf .portal (.write key _ _) => ∃ mac, Found c ip mac past ∧ isValidMac mac = true ∧ key = c.lower mac
    | .csrf .portal (.set ..) | .csrf .login _ | .limiter .login _ | .sessions _ | .verifyPassword .. => False
    | _ => True

/-- What a posted form may do to the database and the firewall. -/
def FormDoes (c : FrontConfig) (ip : IpAddr) (form : AuthForm) (past : Past Access Access.Out) (op : Op) : Prop :=
  op = .sql .getAllSettings ∨ ∃ mac, Entitled c ip form mac past ∧
    (op = .sql (.getTokenByCode (form.code c)) ∨
      ∃ token, LookedUp (form.code c) token past ∧ Serves mac ip.display token past op)

abbrev formGuard (c : FrontConfig) (ip : IpAddr) (form : AuthForm) : Guard Access Access.Out :=
  portalGuard c ip (FormDoes c ip form)

theorem Passed.later (h : Passed c ip form mac past) (hp : past <:+ past') : Passed c ip form mac past' := by
  obtain ⟨now, h⟩ := h
  exact ⟨now, h.later hp⟩

/-- The form was found to be the client's own once the client was known. -/
theorem Passed.vouched (h : Passed c ip form mac past) :
    After (Found c ip mac) ⟨.csrf .portal (.validate (c.lower mac) form.csrfToken), true⟩ past := by
  obtain ⟨now, h⟩ := h
  exact h.holds fun _ _ => After.later

theorem Entitled.later (h : Entitled c ip form mac past) (hp : past <:+ past') : Entitled c ip form mac past' :=
  ⟨h.valid, h.passed.later hp, h.format⟩

theorem LookedUp.later {code : String} (h : LookedUp code token past) (hp : past <:+ past') :
    LookedUp code token past' :=
  ⟨hp.mem h.found, h.status⟩

theorem Serves.later {mac ip : String} {op : Op} (h : Serves mac ip token past op) (hp : past <:+ past') :
    Serves mac ip token past' op := by
  cases h with
  | utcNow => exact .utcNow
  | letIn timeoutSecs => exact .letIn timeoutSecs
  | «open» expiresAt => exact .open expiresAt
  | redeem expiresAt => exact .redeem expiresAt
  | holder => exact .holder
  | dismiss h => exact .dismiss (hp.mem h)
  | close h => exact .close (hp.mem h)

/-! ## The handler keeps it -/

theorem serves_createSession {mac ip : String} {minutes : Int} (past : Past Access Access.Out) :
    Fallible.Uses (Serves mac ip token past) (createSession token.id minutes mac ip) :=
  uses_createSession .utcNow (fun _ => .letIn _) (fun _ => .open _) (fun _ => .redeem _) minutes

/-- The migration once it has found the session of the token. -/
theorem serves_migrated {mac ip : String} {old : Session} {past : Past Access Access.Out}
    (hold : ⟨.world (.sql (.getActiveSessionByToken token.id)), Except.ok (some old)⟩ ∈ past) (remaining : Int) :
    Fallible.Uses (Serves mac ip token past) (do
      let _ ← (deauthorizeClient old.macAddress old.ipAddress).attempt
      sql (.disconnectSession old.id)
      authorizeClient mac ip (asU64 remaining)
      sql (.createSession token.id mac ip old.expiresAt) : App Int) := by
  refine Fallible.Uses.bind (Fallible.Uses.lift (uses_deauthorize (.dismiss hold))) fun _ => ?_
  refine Fallible.Uses.bind (uses_sql (.close hold)) fun _ => ?_
  exact Fallible.Uses.bind (uses_authorize (.letIn _)) fun _ => uses_sql (.open _)

section Keeps

/-- What serves the client is admitted once the token is found. -/
theorem guard_of_serves (h : Entitled c ip form mac past) (ht : LookedUp (form.code c) token past) (op : Access)
    (hp : past <:+ past') (hop : ∃ op', op = .world op' ∧ Serves mac ip.display token past op') :
    formGuard c ip form past' op := by
  obtain ⟨op', rfl, hserves⟩ := hop
  exact .inr ⟨mac, h.later hp, .inr ⟨token, ht.later hp, hserves.later hp⟩⟩

/-- A part of the handler that serves the client. -/
theorem keeps_serving {α : Type} {p : Prog Op Op.Out α} (h : Entitled c ip form mac past)
    (ht : LookedUp (form.code c) token past) (hp : p.Uses (Serves mac ip.display token past)) :
    (Front.world p).Keeps possible (formGuard c ip form) (fun _ past' => past <:+ past') past := by
  refine Prog.keeps_of_uses (K := fun op => ∃ op', op = .world op' ∧ Serves mac ip.display token past op') ?_ ?_
  · exact fun past' op hpast hop => guard_of_serves h ht op hpast hop
  · exact Prog.uses_embed (hp.mono fun op hop => ⟨op, rfl, hop⟩)

theorem keeps_migrateSession (h : Entitled c ip form mac past) (ht : LookedUp (form.code c) token past) :
    (Front.world (migrateSession token.id mac ip.display).run).Keeps possible (formGuard c ip form)
      (fun _ past' => past <:+ past') past := by
  refine ⟨guard_of_serves h ht _ (List.suffix_refl _) ⟨_, rfl, .holder⟩, fun r _ => ?_⟩
  have hp {x : Sigma Access.Out} : past <:+ x :: past := List.suffix_cons ..
  rcases r with e | _ | old
  · exact hp
  · exact hp
  · refine (keeps_serving (h.later hp) (ht.later hp) (p := ExceptT.run (do
      let remaining ← old.remainingSeconds
      if remaining ≤ 0 then throw (.anyhow s!"session for token {token.id} has already expired")
      else
        let _ ← (deauthorizeClient old.macAddress old.ipAddress).attempt
        sql (.disconnectSession old.id)
        authorizeClient mac ip.display (asU64 remaining)
        sql (.createSession token.id mac ip.display old.expiresAt) : App Int)) ?_).mono fun _ _ hp' => hp.trans hp'
    refine Fallible.Uses.bind (Fallible.Uses.lift (uses_remainingSeconds .utcNow old)) fun remaining => ?_
    split
    · trivial
    · exact serves_migrated (List.mem_cons_self ..) remaining

theorem lookedUp_of_ofToken {found : Token}
    (h : TokenLookup.ofToken (some found) = .unused token ∨ TokenLookup.ofToken (some found) = .active token) :
    found = token ∧ (token.status = .unused ∨ token.status = .active) := by
  unfold TokenLookup.ofToken at h
  cases hs : found.status with
  | unused =>
    simp only [hs] at h
    obtain h | h := h <;> cases h
    exact ⟨rfl, .inl hs⟩
  | active =>
    simp only [hs] at h
    obtain h | h := h <;> cases h
    exact ⟨rfl, .inr hs⟩
  | expired | revoked =>
    simp only [hs] at h
    obtain h | h := h <;> cases h

/-- The lookup says that a token can be used only when it has found one. -/
theorem keeps_validateToken (h : Entitled c ip form mac past) :
    (Front.world (validateToken (form.code c)).run).Keeps possible (formGuard c ip form)
      (fun r past' => past <:+ past' ∧ ∀ token, r = .ok (.unused token) ∨ r = .ok (.active token) →
        LookedUp (form.code c) token past') past := by
  refine ⟨.inr ⟨mac, h, .inl rfl⟩, fun r _ => ?_⟩
  rcases r with e | _ | found
  · exact ⟨List.suffix_cons .., fun token h => by rcases h with h | h <;> cases h⟩
  · exact ⟨List.suffix_cons .., fun token h => by rcases h with h | h <;> cases h⟩
  · refine ⟨List.suffix_cons .., fun token htoken => ?_⟩
    obtain ⟨rfl, hs⟩ := lookedUp_of_ofToken (htoken.imp Except.ok.inj Except.ok.inj)
    exact ⟨List.mem_cons_self .., hs⟩

/-- The handler from the lookup of the code on. -/
theorem keeps_lookup (h : Entitled c ip form mac past) :
    (Front.world (Didicafe.portalAuth (form.code c) mac ip.display)).Keeps possible (formGuard c ip form)
      (fun _ past' => past <:+ past') past := by
  unfold Didicafe.portalAuth
  rw [Front.world_bind]
  refine (keeps_validateToken h).bind fun r past₁ ⟨hp, ht⟩ => ?_
  rcases r with e | token | token | _
  · exact hp
  · rw [Front.world_bind]
    have htoken := ht token (.inl rfl)
    refine (keeps_serving (h.later hp) htoken (serves_createSession past₁)).bind fun r past₂ hp₂ => ?_
    cases r <;> exact hp.trans hp₂
  · rw [Front.world_bind]
    have htoken := ht token (.inr rfl)
    refine (keeps_migrateSession (h.later hp) htoken).bind fun r past₂ hp₂ => ?_
    cases r <;> exact hp.trans hp₂
  · exact hp

/-- A new form for the client. -/
theorem guard_of_renews {world : Past Access Access.Out → Op → Prop} (hf : Found c ip mac past)
    (hv : isValidMac mac = true) {op : Access} (hp : past <:+ past') (hop : Renews c .portal mac op) :
    portalGuard c ip world past' op := by
  unfold Renews at hop
  split at hop
  · cases hop
    trivial
  · obtain ⟨rfl, rfl⟩ := hop
    exact ⟨mac, hf.later hp, hv, rfl⟩
  · cases hop

theorem keeps_portalError {error : String} (hf : Found c ip mac past) (hv : isValidMac mac = true) :
    (Front.portalError c error mac draws).Keeps possible (formGuard c ip form) (fun _ _ => True) past := by
  refine keeps_free (fun past' op hp hop => ?_) renews_portalError
  rcases hop with hop | rfl
  · exact guard_of_renews hf hv hp hop
  · exact .inl rfl

theorem guard_of_arp {world : Past Access Access.Out → Op → Prop} {op : Access}
    (h : op = .procNetArp ∨ op = .ipNeigh ip.display ∨ op = .arpCommand) : portalGuard c ip world past op := by
  rcases h with rfl | rfl | rfl <;> trivial

theorem keeps_enterCode (hfound : Found c ip mac past) (hvalid : isValidMac mac = true)
    (hentitled : validateTokenFormat c.token (form.code c) = .ok (.ok ()) → Entitled c ip form mac past) :
    (Front.enterCode c ip (form.code c) mac draws).Keeps possible (formGuard c ip form) (fun _ _ => True) past := by
  unfold Front.enterCode
  split
  · trivial
  · exact keeps_portalError hfound hvalid
  · rename_i hformat
    refine (keeps_lookup (hentitled hformat)).bind fun answer past₄ hp₄ => ?_
    cases answer with
    | internal e => trivial
    | success => trivial
    | error key => exact keeps_portalError (hfound.later hp₄) hvalid

theorem keeps_portalAuth : (Front.portalAuth c ip form draws).Keeps possible (formGuard c ip form)
    (fun _ _ => True) past := by
  refine (keeps_clientInfo fun _ _ _ h => guard_of_arp h).bind fun client past₁ h₁ => ?_
  cases client with
  | error e => trivial
  | ok mac =>
    obtain ⟨hfound, hvalid⟩ := h₁.2 mac rfl
    refine (keeps_validate hfound trivial).bind fun own past₂ ⟨hp₂, hvouched⟩ => ?_
    have hfound := hfound.later hp₂
    split
    · exact keeps_portalError hfound hvalid
    rename_i hown
    have hvouched := hvouched (by simpa using hown)
    refine (keeps_checkAndRecord (fun _ hp => hvouched.later hp) fun _ _ _ => ?_).bind
      fun verdict past₃ ⟨hp₃, hpassed⟩ => ?_
    · trivial
    have hfound := hfound.later hp₃
    rcases verdict with e | _ | _ | _
    · trivial
    · -- the attempt is allowed
      exact keeps_enterCode hfound hvalid fun hformat => ⟨hvalid, hpassed rfl, hformat⟩
    · trivial
    · trivial

theorem keeps_portalPage : (Front.portalPage c ip draws).Keeps possible
    (portalGuard c ip fun _ op => op = .sql .getAllSettings) (fun _ _ => True) past := by
  refine (keeps_clientInfo fun _ _ _ h => guard_of_arp h).bind fun client past₁ h₁ => ?_
  cases client with
  | error e => trivial
  | ok mac =>
    obtain ⟨hfound, hvalid⟩ := h₁.2 mac rfl
    have form : (Front.getOrGenerate c .portal mac draws).Keeps possible
        (portalGuard c ip fun _ op => op = .sql .getAllSettings) (fun _ _ => True) past₁ := by
      refine ⟨trivial, fun live _ => ?_⟩
      cases live with
      | some token => trivial
      | none => exact ⟨trivial, fun _ _ => ⟨⟨mac, hfound.later ((List.suffix_cons ..).trans (List.suffix_cons ..)),
          hvalid, rfl⟩, fun _ _ => trivial⟩⟩
    exact form.bind fun csrfToken past₂ _ => (keeps_settings rfl).bind fun _ _ _ => trivial

end Keeps

end Didicafe
