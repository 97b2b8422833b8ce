/-
Where the address pairs and the codes of the daemon come from. Only three kinds of operations bring one in: adding an
element to the firewall set, opening a session, and creating a token. So, when clients that are given a code of the
house, and the admins who log in, are all in some class of address pairs, then no other pair is ever in the set.
-/
import Didicafe.Daemon.House

namespace Didicafe

open Effect Runs

/-! ## Operations that bring nothing in -/

def Op.Neutral : Op → Prop
  | .nft (.addElement ..) | .sql (.createToken ..) | .sql (.createSession ..) => False
  | _ => True

/-- The program brings no address pair and no code in. -/
abbrev Neutral {ε α : Type} (x : Fallible ε Op Op.Out α) : Prop := Fallible.Uses Op.Neutral x

/-- What is written to the plans, the audit log and the settings brings nothing in. -/
theorem neutral_of_within {α : Type} {parts : List Part} {x : Prog Op Op.Out α}
    (h : x.Uses fun op => op.within parts = true) (hparts : parts ⊆ [.plan, .auditLog, .setting]) :
    x.Uses Op.Neutral := by
  refine h.mono fun op hop => ?_
  have apart (part : Part) (hpart : part ∉ [.plan, .auditLog, .setting]) : op.part ≠ some part :=
    Op.part_ne_of_within hop fun hmem => hpart (hparts hmem)
  rcases op with _ | cmd | q
  · trivial
  · exact absurd rfl (apart .authSet (by decide))
  · cases q with
    | createToken => exact absurd rfl (apart .token (by decide))
    | createSession => exact absurd rfl (apart .session (by decide))
    | _ => trivial

namespace Neutral

variable {ε α β : Type}

theorem bind {x : Fallible ε Op Op.Out α} {f : α → Fallible ε Op Op.Out β} (hx : Neutral x) (hf : ∀ a, Neutral (f a)) :
    Neutral (x >>= f) := Fallible.Uses.bind hx hf

theorem op {q : Sql} (h : (Op.sql q).Neutral) : Neutral (sql q) := uses_sql h

theorem deauthorizeClient (mac ip : String) : Neutral (deauthorizeClient mac ip) := by
  refine bind (x := App.ofExcept _) trivial fun _ => ?_
  exact bind (Fallible.Uses.lift (uses_runNft trivial)) fun _ => trivial

theorem disconnect (sessionId : Int) : Neutral (disconnect sessionId) := by
  refine bind (op trivial) fun session => ?_
  cases session with
  | none => trivial
  | some session => exact bind (deauthorizeClient _ _) fun _ => op trivial

theorem apiRevokeToken (adminUser : String) (id : Int) : (apiRevokeToken adminUser id).Uses Op.Neutral :=
  uses_apiRevokeToken trivial trivial trivial

theorem apiDisconnectSession (adminUser : String) (id : Int) : Neutral (apiDisconnectSession adminUser id) :=
  bind (Prog.Uses.bind (disconnect id) fun _ => trivial) fun _ => uses_ignore (op trivial)

theorem cleanupPass (grace : Int) : (cleanupPass grace).Uses Op.Neutral := by
  refine Prog.Uses.bind (op (q := .getActiveSessions) trivial) fun r => ?_
  cases r with
  | error e => trivial
  | ok l =>
    refine Prog.Uses.forM (fun s => (uses_remainingSeconds trivial s).bind fun remaining => ?_) l
    split
    · refine Prog.Uses.bind (deauthorizeClient _ _) fun r => ?_
      cases r with
      | error e => trivial
      | ok =>
        refine Prog.Uses.bind (op (q := .expireSession s.id) trivial) fun r => ?_
        cases r with
        | error e => trivial
        | ok => exact Prog.Uses.bind (op (q := .expireToken s.tokenId) trivial) fun _ => trivial
    · trivial

theorem purgeExpiredSessions (retentionDays : Int) : Neutral (purgeExpiredSessions retentionDays) :=
  bind (op trivial) fun _ => bind (op trivial) fun _ => trivial

end Neutral

/-! ## What is attributed -/

section Attributed

variable (P : String × String → Prop) (C : String → Prop)

/-- The codes of the tokens are in the one class; the pairs of the sessions and of the set are in the other. -/
structure Attributed (w : World) : Prop where
  codes : ∀ r ∈ w.db.tables.token, C r.code
  sessions : ∀ s ∈ w.db.tables.session, P s.pair
  set : ∀ k e, w.set k = some e → P k

def Op.Attributed : Op → Prop
  | .nft (.addElement mac ip _) | .sql (.createSession _ mac ip _) => P (mac, ip)
  | .sql (.createToken code _ _) => C code
  | _ => True

variable {P C}

theorem Op.Neutral.attributed {op : Op} (h : op.Neutral) : op.Attributed P C := by
  rcases op with _ | cmd | q
  · trivial
  · cases cmd with
    | addElement => exact h.elim
    | deleteElement => trivial
  · cases q with
    | createToken | createSession => exact h.elim
    | _ => trivial

/-- A statement keeps the codes and the sessions attributed. -/
theorem attributed_sql {t : Tables} (hcodes : ∀ r ∈ t.token, C r.code) (hsessions : ∀ s ∈ t.session, P s.pair)
    (now : Int) {q : Sql} (hq : (Op.sql q).Attributed P C) :
    (∀ r ∈ (q.run now t).2.token, C r.code) ∧ ∀ s ∈ (q.run now t).2.session, P s.pair := by
  have update {p : SessionRow → Bool} {st : SessionStatus} : ∀ s ∈ (t.setSessionStatus p st).session, P s.pair :=
    Table.forall_updateWhere hsessions fun s hs _ => hsessions s hs
  cases q with
  | createToken code name planId =>
    simp only [Sql.run, Tables.createToken]
    split
    · exact ⟨hcodes, hsessions⟩
    · split
      · refine ⟨fun r hr => ?_, hsessions⟩
        rcases List.mem_append.1 hr with hr | hr
        · exact hcodes r hr
        · rw [List.mem_singleton.1 hr]
          exact hq
      · exact ⟨hcodes, hsessions⟩
  | createSession tokenId mac ip expiresAt =>
    simp only [Sql.run, Tables.createSession]
    split
    · refine ⟨hcodes, fun s hs => ?_⟩
      rcases List.mem_append.1 hs with hs | hs
      · exact update s hs
      · rw [List.mem_singleton.1 hs]
        exact hq
    · exact ⟨hcodes, hsessions⟩
  | redeemToken | expireToken | revokeToken =>
    exact ⟨Table.forall_updateWhere hcodes fun r hr _ => hcodes r hr, hsessions⟩
  | expireSession | disconnectSession => exact ⟨hcodes, update⟩
  | deleteEndedSessions => exact ⟨hcodes, fun s hs => hsessions s (Table.mem_deleteWhere.1 hs).1⟩
  | deleteOrphanTokens => exact ⟨fun r hr => hcodes r (Table.mem_deleteWhere.1 hr).1, hsessions⟩
  | _ => exact ⟨hcodes, hsessions⟩

theorem Attributed.exec {w : World} (h : Attributed P C w) {op : Op} (hop : op.Attributed P C) (fault : Option Err) :
    Attributed P C (World.exec fault op w).2 := by
  cases fault with
  | some e => rw [World.exec_some]; exact h
  | none =>
    cases op with
    | utcNow => exact h
    | sql q =>
      obtain ⟨hcodes, hsessions⟩ := attributed_sql h.codes h.sessions w.now hop
      exact ⟨hcodes, hsessions, h.set⟩
    | nft cmd =>
      refine ⟨h.codes, h.sessions, fun k e hk => ?_⟩
      cases cmd with
      | addElement mac ip timeoutSecs =>
        by_cases hkey : k = (mac, ip)
        · rw [hkey]
          exact hop
        · exact h.set k e ((TimedSet.insert_of_ne w.set hkey _).symm.trans hk)
      | deleteElement mac ip =>
        by_cases hkey : k = (mac, ip)
        · rw [hkey] at hk
          exact absurd hk (by simp [World.exec, NftCmd.exec])
        · exact h.set k e ((TimedSet.erase_of_ne w.set hkey).symm.trans hk)

variable (P C) in
/-- The others may do anything that keeps all attributed. -/
def attribution : Rules Op Op.Out World (Option Err) where
  rely w w' := Attributed P C w → Attributed P C w'
  allowed _ op := op.Attributed P C
  handler := World.exec
  refl _ h := h
  trans h h' hw := h' (h hw)
  keeps fault _ _ hok h := h.exec hok fault

/-! ## Programs that bring something in -/

section Heeds

open Rules

variable {w : World} {mac ip : String}

theorem attribution_neutral {α : Type} {x : Prog Op Op.Out α} (h : x.Uses Op.Neutral) : (attribution P C).Heeds x w :=
  h.heeds fun _ _ hop => hop.attributed

theorem attributed_authorizeClient (h : P (mac, ip)) (timeoutSecs : Nat) :
    Fallible.Uses (Op.Attributed P C) (authorizeClient mac ip timeoutSecs) := by
  refine Fallible.Uses.bind (x := App.ofExcept _) trivial fun _ => ?_
  exact Prog.Uses.bind (uses_runNft h) fun _ => trivial

theorem attributed_createSession (h : P (mac, ip)) (tokenId minutes : Int) :
    Fallible.Uses (Op.Attributed P C) (createSession tokenId minutes mac ip) := by
  refine Fallible.Uses.bind (Fallible.Uses.lift (p := utcNow) ⟨trivial, fun _ => trivial⟩) fun now => ?_
  refine Fallible.Uses.bind (x := App.ofExcept _) trivial fun duration => ?_
  refine Fallible.Uses.bind (x := App.ofExcept _) trivial fun expiresAt => ?_
  refine Fallible.Uses.bind (attributed_authorizeClient h _) fun _ => ?_
  exact Fallible.Uses.bind (uses_sql h) fun _ => Fallible.Uses.bind (uses_sql trivial) fun _ => trivial

theorem attributed_migrateSession (h : P (mac, ip)) (tokenId : Int) :
    Fallible.Uses (Op.Attributed P C) (migrateSession tokenId mac ip) := by
  refine Fallible.Uses.bind (uses_sql trivial) fun session => ?_
  cases session with
  | none => trivial
  | some session =>
    refine Fallible.Uses.bind (Fallible.Uses.lift (uses_remainingSeconds trivial _)) fun remaining => ?_
    split
    · trivial
    · refine Fallible.Uses.bind (x := App.attempt _) (Fallible.Uses.lift ?_) fun _ => ?_
      · refine Fallible.Uses.bind (x := App.ofExcept _) trivial fun _ => ?_
        exact Fallible.Uses.bind (Fallible.Uses.lift (uses_runNft trivial)) fun _ => trivial
      · refine Fallible.Uses.bind (uses_sql trivial) fun _ => ?_
        exact Fallible.Uses.bind (attributed_authorizeClient h _) fun _ => uses_sql h

/-- A client outside the class gets nowhere with a code that is no token's. -/
theorem attribution_portalAuth {code : String} (hw : Attributed P C w) (h : P (mac, ip) ∨ ¬ C code) :
    (attribution P C).Heeds (portalAuth code mac ip) w := by
  by_cases hpair : P (mac, ip)
  · refine Prog.Uses.heeds (K := Op.Attributed P C) (fun _ _ hop => hop) ?_
    have hlookup : Fallible.Uses (Op.Attributed P C) (validateToken code) :=
      Fallible.Uses.bind (uses_sql trivial) fun _ => trivial
    refine Prog.Uses.bind hlookup fun r => ?_
    rcases r with _ | token | token | _
    · trivial
    · exact Prog.Uses.bind (attributed_createSession hpair _ _) fun r => by cases r <;> trivial
    · exact Prog.Uses.bind (attributed_migrateSession hpair _) fun r => by cases r <;> trivial
    · trivial
  · have hcode : ¬ C code := h.resolve_left hpair
    refine fun w' hr => ⟨trivial, fun fault => ?_⟩
    cases fault with
    | some e => trivial
    | none =>
      have hnone : w'.db.tables.tokenByCode code = none := by
        unfold Tables.tokenByCode
        cases hf : w'.db.tables.token.find? fun r => r.code == code with
        | none => rfl
        | some r =>
          have hr' := (hr hw).codes r (List.mem_of_find?_eq_some hf)
          have : r.code = code := by simpa using List.find?_some hf
          exact absurd (this ▸ hr') hcode
      show (attribution P C).Heeds (Prog.bind (Prog.done (Except.ok (TokenLookup.ofToken
        (w'.db.tables.tokenByCode code)))) _) _
      rw [hnone]
      trivial

/-- The restore authorizes the pairs of sessions. -/
theorem attribution_restoreSessions (grace : Int) (hw : Attributed P C w) :
    (attribution P C).Heeds (restoreSessions grace).run w := by
  refine fun w' hr => ⟨trivial, fun fault => ?_⟩
  cases fault with
  | some e => trivial
  | none =>
    have hpairs : ∀ k ∈ w'.db.tables.sessionActive, P k.pair := fun k hk =>
      (hr hw).sessions _ (Tables.mem_sessionActive hk).1
    refine Heeds.lift (Heeds.forM fun k hk w'' _ => ?_)
    refine Prog.Uses.heeds (K := Op.Attributed P C) (fun _ _ hop => hop) ?_
    refine (uses_remainingSeconds trivial k).bind fun remaining => ?_
    split
    · exact Prog.Uses.bind (attributed_authorizeClient (hpairs k hk) _) fun _ => trivial
    · refine Prog.Uses.bind (uses_sql (q := .expireSession k.id) trivial) fun r => ?_
      cases r with
      | error e => trivial
      | ok => exact Prog.Uses.bind (uses_sql (q := .expireToken k.tokenId) trivial) fun _ => trivial

theorem attributed_generateTokens {c : TokenConfig} {draws : Nat → Draws c} (h : ∀ k, C (generateCode c (draws k)))
    (planId : Int) (count : Nat) (name : Option String) :
    Fallible.Uses (Op.Attributed P C) (generateTokens c planId count name draws) := by
  refine Fallible.Uses.bind (Fallible.Uses.forM_mem fun code hcode => ?_) fun _ => trivial
  obtain ⟨k, -, rfl⟩ := List.mem_map.1 hcode
  exact Fallible.Uses.bind (uses_sql (h k)) fun _ => trivial

theorem attributed_apiGenerateTokens {c : TokenConfig} {draws : Nat → Draws c} (h : ∀ k, C (generateCode c (draws k)))
    (name : String) (planId : Int) (count : Nat) :
    Fallible.Uses (Op.Attributed P C) (apiGenerateTokens c name planId count draws) := by
  refine Fallible.Uses.bind (x := Api.ofExcept _) trivial fun _ => ?_
  refine Fallible.Uses.bind (uses_internal (uses_sql trivial)) fun plan => ?_
  cases plan with
  | none => trivial
  | some plan =>
    show Fallible.Uses _ (ite (plan.active = false) _ _)
    split
    · trivial
    · exact uses_internal (attributed_generateTokens h _ _ _)

theorem attributed_manageSubmit {c : TokenConfig} {draws : Nat → Draws c} (h : ∀ k, C (generateCode c (draws k)))
    (adminUser csrf : String) (form : ManageForm) :
    Fallible.Uses (Op.Attributed P C) (manageSubmit c adminUser csrf form draws) := by
  have neutral {α : Type} {parts : List Part} {x : Api α} (hx : Within parts x)
      (hparts : parts ⊆ [.plan, .auditLog, .setting]) : Fallible.Uses (Op.Attributed P C) x :=
    (neutral_of_within hx hparts).mono fun _ hop => hop.attributed
  have load : Within [] (loadManageData "current" 1) := .loadManageData "current" 1
  have page (message : Option I18nMessage) : Fallible.Uses (Op.Attributed P C) (do
      let data ← loadManageData "current" 1
      return (data, message) : Api (ManageData × Option I18nMessage)) :=
    neutral (Within.bind load fun _ => trivial) (List.nil_subset _)
  unfold manageSubmit
  split
  · trivial
  cases form.planName with
  | some planName => exact Fallible.Uses.bind (neutral (.manageCreatePlan ..) (by decide)) page
  | none =>
    cases form.planId with
    | none => exact Fallible.Uses.bind (x := pure none) trivial page
    | some planId =>
      refine Fallible.Uses.bind ?_ page
      show Fallible.Uses _ (ite (form.count.getD 0 > 0) _ _)
      split
      · refine Fallible.Uses.bind (x := Api.ofExcept _) trivial fun _ => ?_
        refine Fallible.Uses.bind (uses_internal (uses_sql trivial)) fun plan => ?_
        cases plan with
        | none => trivial
        | some plan =>
          show Fallible.Uses _ (ite (plan.active = false) _ _)
          split
          · trivial
          · refine Fallible.Uses.bind (uses_internal (attributed_generateTokens h _ _ _)) fun _ => ?_
            exact Fallible.Uses.bind (uses_ignore (uses_sql trivial)) fun _ => trivial
      · trivial

theorem attributed_recordLogin {username : String} {accepted : Bool} {client : Option (String × String)}
    (h : accepted = true → ∀ k, client = some k → P k) :
    Fallible.Uses (Op.Attributed P C) (recordLogin username accepted client) := by
  cases accepted with
  | false => exact Fallible.Uses.bind (uses_ignore (uses_sql trivial)) fun _ => trivial
  | true =>
    refine Fallible.Uses.bind (uses_ignore (uses_sql trivial)) fun _ => ?_
    cases client with
    | none => trivial
    | some k => exact Fallible.Uses.bind (uses_ignore (attributed_authorizeClient (h rfl k rfl) _)) fun _ => trivial

end Heeds

/-! ## Runs -/

/-- The draws of the codes that the request generates. -/
def AdminAction.draws {c : TokenConfig} : AdminAction c → Option (Nat → Draws c)
  | .generateTokens _ _ _ draws | .manageSubmit _ draws => some draws
  | _ => none

variable (P C) in
/-- Codes of the house are drawn in the one class; those who post such a code, and the admins who log in, are in the
other. -/
def HouseCall.Admitted {c : CafeConfig} : HouseCall c → Prop
  | .portalAuth code mac ip => P (mac, ip) ∨ ¬ C code
  | .admin (.login _ accepted client) => accepted = true → ∀ k, client = some k → P k
  | .admin (.action _ a) => ∀ draws, a.draws = some draws → ∀ k, C (generateCode c.token (draws k))
  | _ => True

variable (P C) in
def HouseLabel.Admitted {c : CafeConfig} : HouseLabel c → Prop
  | .start k => k.Admitted P C
  | _ => True

theorem AdminAction.attribution {c : TokenConfig} {w : World} {a : AdminAction c}
    (h : ∀ draws, a.draws = some draws → ∀ k, C (generateCode c (draws k))) (adminUser csrf : String) :
    (attribution P C).Heeds (a.handler adminUser csrf).run w := by
  have codes {α : Type} {x : Api α} (hx : Fallible.Uses (Op.Attributed P C) x) :
      (Didicafe.attribution P C).Heeds (Api.void x).run w :=
    Prog.Uses.heeds (fun _ _ hop => hop) (Fallible.Uses.bind hx fun _ => trivial : Fallible.Uses _ (Api.void x))
  by_cases hparts : a.footprint ⊆ [.plan, .auditLog, .setting]
  · exact attribution_neutral (neutral_of_within (Within.handler adminUser csrf a) hparts)
  cases a with
  | generateTokens name planId count draws =>
    exact codes (attributed_apiGenerateTokens (h draws rfl) name planId count)
  | manageSubmit form draws => exact codes (attributed_manageSubmit (h draws rfl) adminUser csrf form)
  | revokeToken id => exact attribution_neutral (Neutral.apiRevokeToken adminUser id)
  | disconnectSession id => exact attribution_neutral (Neutral.apiDisconnectSession adminUser id)
  | _ => simp [footprint] at hparts

theorem HouseCall.attribution {c : CafeConfig} {w : World} (hw : Attributed P C w) {k : HouseCall c}
    (hk : k.Admitted P C) : (attribution P C).Heeds k.program w := by
  have void {x : Api Unit} (hx : (Didicafe.attribution P C).Heeds x.run w) :
      (Didicafe.attribution P C).Heeds x.run.void w := hx.void
  cases k with
  | portalAuth code mac ip => exact (attribution_portalAuth hw hk).void
  | cleanup => exact (attribution_neutral (Neutral.cleanupPass _)).void
  | purge retentionDays => exact (attribution_neutral (Neutral.purgeExpiredSessions _)).void
  | restore => exact (attribution_restoreSessions _ hw).void
  | admin r =>
    cases r with
    | login username accepted client =>
      refine void (Prog.Uses.heeds (K := Op.Attributed P C) (fun _ _ hop => hop) ?_)
      exact Fallible.Uses.bind (attributed_recordLogin hk) fun _ => trivial
    | action session a =>
      cases session with
      | none => trivial
      | some csrf => exact void (a.attribution hk c.adminUsername csrf)

variable (P C) in
/-- All is attributed, and every program under way keeps it so. -/
structure HouseAttributed {c : CafeConfig} (s : House c) : Prop where
  world : Attributed P C s.shared
  threads : ∀ t ∈ s.threads, (attribution P C).Heeds t.rest s.shared

theorem HouseAttributed.step {c : CafeConfig} {s s' : House c} {l : HouseLabel c} (h : HouseAttributed P C s)
    (hl : l.Admitted P C) (hs : (house c).step s l = some s') : HouseAttributed P C s' := by
  cases l with
  | start k =>
    cases hs
    refine ⟨h.world, fun t ht => ?_⟩
    rcases List.mem_append.1 ht with ht | ht
    · exact h.threads t ht
    · rw [List.mem_singleton.1 ht]
      exact k.attribution h.world hl
  | advance i fault =>
    obtain ⟨hrely, hthreads⟩ := (attribution P C).heeds_advance h.threads hs
    exact ⟨hrely h.world, hthreads⟩
  | elapse nanos =>
    cases hs
    have hw : (attribution P C).rely s.shared { s.shared with now := s.shared.now + nanos } :=
      fun hw => ⟨hw.codes, hw.sessions, hw.set⟩
    exact ⟨hw h.world, fun t ht => (h.threads t ht).later hw⟩

end Attributed

end Didicafe
