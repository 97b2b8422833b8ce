/-
What the queries return and what the updates leave: a query finds exactly the rows it asks for,
since every session has its token and every token its plan, and after each update the active
sessions are known from those before it.
-/
import Didicafe.Model.Db.Tables

namespace Didicafe

open Table

namespace Tables

variable {t : Tables}

/-! ## Joins -/

theorem joinToken_row {r : TokenRow} {k : Token} (h : t.joinToken r = some k) : k.toTokenRow = r := by
  obtain ⟨p, -, rfl⟩ := Option.map_eq_some_iff.1 h
  rfl

theorem joinSession_row {s : SessionRow} {k : Session} (h : t.joinSession s = some k) : k.toSessionRow = s := by
  unfold joinSession at h
  obtain ⟨r, -, h⟩ := Option.bind_eq_some_iff.1 h
  obtain ⟨p, -, h⟩ := Option.bind_eq_some_iff.1 h
  cases h; rfl

theorem joinSession_some (hs : t.Schema) {s : SessionRow} (h : s ∈ t.session) :
    ∃ k, t.joinSession s = some k ∧ k.toSessionRow = s := by
  obtain ⟨r, hr, hrs⟩ := hs.sessionToken s h
  obtain ⟨p, hp, hpr⟩ := hs.tokenPlan r hr
  have hf : t.token.find? (fun r => r.id == s.tokenId) = some r := (find_key_iff hs.tokenId).2 ⟨hr, hrs⟩
  have hg : t.plan.find? (fun p => p.id == r.planId) = some p := (find_key_iff hs.planId).2 ⟨hp, hpr⟩
  refine ⟨{ toSessionRow := s, tokenCode := some r.code, tokenName := r.name, planName := some p.name }, ?_, rfl⟩
  unfold joinSession; rw [hf]; simp only [Option.bind_eq_bind, Option.bind_some]; rw [hg]; rfl

/-! ## Queries -/

/-- The joined sessions are the rows, one for one. -/
theorem map_sessionsWhere (hs : t.Schema) (p : SessionRow → Bool) :
    (t.sessionsWhere p).map (·.toSessionRow) = t.session.filter p := by
  unfold sessionsWhere
  have : ∀ l : List SessionRow, (∀ s ∈ l, s ∈ t.session) → (l.filterMap t.joinSession).map (·.toSessionRow) = l := by
    intro l hl
    induction l with
    | nil => rfl
    | cons s l ih =>
      obtain ⟨k, hk, hks⟩ := joinSession_some hs (hl s (List.mem_cons_self ..))
      rw [List.filterMap_cons_some hk, List.map_cons, hks, ih fun x hx => hl x (List.mem_cons_of_mem _ hx)]
  exact this _ fun s h => (List.mem_filter.1 h).1

theorem mem_sessionsWhere {p : SessionRow → Bool} {k : Session} (h : k ∈ t.sessionsWhere p) :
    k.toSessionRow ∈ t.session ∧ p k.toSessionRow = true := by
  obtain ⟨s, hs, hk⟩ := List.mem_filterMap.1 h
  rw [joinSession_row hk]
  exact List.mem_filter.1 hs

theorem exists_sessionsWhere (hs : t.Schema) {p : SessionRow → Bool} {s : SessionRow} (h : s ∈ t.session)
    (hp : p s = true) : ∃ k ∈ t.sessionsWhere p, k.toSessionRow = s := by
  have : s ∈ (t.sessionsWhere p).map (·.toSessionRow) := by
    rw [map_sessionsWhere hs]; exact List.mem_filter.2 ⟨h, hp⟩
  exact List.mem_map.1 this

theorem mem_of_head? {p : SessionRow → Bool} {k : Session} (h : (t.sessionsWhere p).head? = some k) :
    k.toSessionRow ∈ t.session ∧ p k.toSessionRow = true :=
  mem_sessionsWhere (List.mem_of_mem_head? h)

theorem not_of_head?_none (hs : t.Schema) {p : SessionRow → Bool} (h : (t.sessionsWhere p).head? = none)
    {s : SessionRow} (hm : s ∈ t.session) : p s = false := by
  rw [List.head?_eq_none_iff] at h
  cases hp : p s with
  | false => rfl
  | true =>
    obtain ⟨k, hk, -⟩ := exists_sessionsWhere hs hm hp
    rw [h] at hk; cases hk

theorem sessionById_some {id : Int} {k : Session} (h : t.sessionById id = some k) :
    k.toSessionRow ∈ t.session ∧ k.id = id := by
  have := mem_of_head? h
  exact ⟨this.1, by simpa using this.2⟩

theorem sessionById_none (hs : t.Schema) {id : Int} (h : t.sessionById id = none) : ∀ s ∈ t.session, s.id ≠ id :=
  fun s hm he => by have := not_of_head?_none hs h hm; simp [he] at this

theorem sessionById_of_mem (hs : t.Schema) {s : SessionRow} (h : s ∈ t.session) :
    ∃ k, t.sessionById s.id = some k ∧ k.toSessionRow = s := by
  cases hk : t.sessionById s.id with
  | none => exact absurd rfl (sessionById_none hs hk s h)
  | some k =>
    obtain ⟨hm, hid⟩ := sessionById_some hk
    exact ⟨k, rfl, eq_of_key hs.sessionId hm h hid⟩

theorem tokenByCode_some {code : String} {k : Token} (h : t.tokenByCode code = some k) :
    k.toTokenRow ∈ t.token ∧ k.code = code := by
  obtain ⟨r, hr, hk⟩ := Option.bind_eq_some_iff.1 h
  have hrow := joinToken_row hk
  have hc := List.find?_some hr
  exact ⟨hrow ▸ List.mem_of_find?_eq_some hr, by rw [hrow]; simpa using hc⟩

/-- What an insertion of a token that succeeds requires and does. -/
theorem createToken_ok {now id planId : Int} {code : String} {name : Option String}
    (h : (t.createToken now code name planId).1 = .ok id) : (∀ r ∈ t.token, r.code ≠ code) ∧
    (t.createToken now code name planId).2 =
      { t with
        token := t.token ++
          [{ id := t.tokenSeq, code := code, name := name, planId := planId, status := .unused,
             createdAt := datetimeNow now, redeemedAt := none, expiresAt := none }]
        tokenSeq := t.tokenSeq + 1 } := by
  unfold createToken at h ⊢
  split at h
  · cases h
  · rename_i hcode
    split at h
    · rename_i hplan
      rw [if_neg hcode, if_pos hplan]
      refine ⟨fun r hr he => hcode ?_, rfl⟩
      exact List.any_eq_true.2 ⟨r, hr, by simpa using he⟩
    · cases h

theorem joinToken_some (hs : t.Schema) {r : TokenRow} (h : r ∈ t.token) :
    ∃ k, t.joinToken r = some k ∧ k.toTokenRow = r := by
  obtain ⟨p, hp, hpr⟩ := hs.tokenPlan r h
  have hf : t.plan.find? (fun p => p.id == r.planId) = some p := (find_key_iff hs.planId).2 ⟨hp, hpr⟩
  exact ⟨_, by unfold joinToken; rw [hf]; rfl, rfl⟩

theorem tokenByCode_of_mem (hs : t.Schema) {r : TokenRow} (h : r ∈ t.token) :
    ∃ k, t.tokenByCode r.code = some k ∧ k.toTokenRow = r := by
  have hf : t.token.find? (fun r' => r'.code == r.code) = some r := (find_key_iff hs.tokenCode).2 ⟨h, rfl⟩
  unfold tokenByCode
  rw [hf]
  exact joinToken_some hs h

/-! ## Active sessions -/

/-- A session row with status `active`. -/
def Active (t : Tables) (s : SessionRow) : Prop := s ∈ t.session ∧ s.isActive = true

instance (t : Tables) (s : SessionRow) : Decidable (t.Active s) := by unfold Active; infer_instance

/-- At most one active session per device. -/
def OnePerMac (t : Tables) : Prop := Unique SessionRow.isActive SessionRow.macAddress t.session

/-- At most one active session per token. -/
def OnePerToken (t : Tables) : Prop := Unique SessionRow.isActive SessionRow.tokenId t.session

instance (t : Tables) : Decidable t.OnePerMac := by unfold OnePerMac Table.Unique; infer_instance

instance (t : Tables) : Decidable t.OnePerToken := by unfold OnePerToken Table.Unique; infer_instance

theorem OnePerMac.eq (h : t.OnePerMac) {a b : SessionRow} (ha : t.Active a) (hb : t.Active b)
    (hm : a.macAddress = b.macAddress) : a = b := h a ha.1 b hb.1 ha.2 hb.2 hm

theorem OnePerToken.eq (h : t.OnePerToken) {a b : SessionRow} (ha : t.Active a) (hb : t.Active b)
    (hm : a.tokenId = b.tokenId) : a = b := h a ha.1 b hb.1 ha.2 hb.2 hm

theorem onePerMac_of (h : ∀ a b, t.Active a → t.Active b → a.macAddress = b.macAddress → a = b) : t.OnePerMac :=
  fun a ha b hb pa pb => h a b ⟨ha, pa⟩ ⟨hb, pb⟩

/-- A new session of a device, whose others are not active any more. -/
theorem OnePerMac.opened {t' : Tables} (hu : t.OnePerMac) (new : SessionRow)
    (h : ∀ s, t'.Active s → t.Active s ∧ s.macAddress ≠ new.macAddress ∨ s = new) : t'.OnePerMac := by
  apply onePerMac_of
  intro a b ha hb hab
  rcases h a ha with ⟨ha, hna⟩ | rfl <;> rcases h b hb with ⟨hb, hnb⟩ | rfl
  · exact hu.eq ha hb hab
  · exact absurd hab hna
  · exact absurd hab.symm hnb
  · rfl

theorem Active.eq_of_id (hs : t.Schema) {a b : SessionRow} (ha : t.Active a) (hb : t.Active b) (h : a.id = b.id) :
    a = b := eq_of_key hs.sessionId ha.1 hb.1 h

theorem mem_sessionActive {k : Session} (h : k ∈ t.sessionActive) : t.Active k.toSessionRow := mem_sessionsWhere h

theorem sessionByToken_some {tokenId : Int} {k : Session} (h : t.sessionByToken tokenId = some k) :
    t.Active k.toSessionRow ∧ k.tokenId = tokenId := by
  obtain ⟨hm, hp⟩ := mem_of_head? h
  rw [Bool.and_eq_true] at hp
  exact ⟨⟨hm, hp.2⟩, by simpa using hp.1⟩

theorem sessionByToken_none (hs : t.Schema) {tokenId : Int} (h : t.sessionByToken tokenId = none) {s : SessionRow}
    (ha : t.Active s) : s.tokenId ≠ tokenId := by
  intro he
  have := not_of_head?_none hs h ha.1
  simp [he, ha.2] at this

theorem sessionByMac_some {now : Int} {mac : String} {k : Session} (h : t.sessionByMac now mac = some k) :
    t.Active k.toSessionRow ∧ k.macAddress = mac ∧ datetimeNow now < k.expiresAt := by
  unfold sessionByMac at h
  split at h
  · cases h
  · rename_i a l hl
    cases h
    have mem : ∀ (l : List Session) (a : Session), lastById a l ∈ a :: l := by
      intro l
      induction l with
      | nil => intro a; exact List.mem_cons_self ..
      | cons b l ih =>
        intro a
        show lastById (if a.id ≤ b.id then b else a) l ∈ _
        rcases List.mem_cons.1 (ih (if a.id ≤ b.id then b else a)) with h | h
        · rw [h]; split
          · exact List.mem_cons_of_mem _ (List.mem_cons_self ..)
          · exact List.mem_cons_self ..
        · exact List.mem_cons_of_mem _ (List.mem_cons_of_mem _ h)
    obtain ⟨hm, hp⟩ := mem_sessionsWhere (hl ▸ mem l a)
    simp only [Bool.and_eq_true, beq_iff_eq, decide_eq_true_eq] at hp
    exact ⟨⟨hm, hp.1.2⟩, hp.1.1, hp.2⟩

/-! ## Updates of the session table -/

/-- After ending rows, the active rows are those before that were not ended. -/
theorem active_setSessionStatus {p : SessionRow → Bool} {st : SessionStatus} (hst : st ≠ .active) (s : SessionRow) :
    (t.setSessionStatus p st).Active s ↔ t.Active s ∧ p s = false := by
  unfold Active setSessionStatus
  simp only [mem_updateWhere]
  constructor
  · rintro ⟨⟨a, ha, hp, rfl⟩ | ⟨hs, hp⟩, hact⟩
    · simp [SessionRow.isActive, hst] at hact
    · exact ⟨⟨hs, hact⟩, hp⟩
  · rintro ⟨⟨hs, hact⟩, hp⟩
    exact ⟨.inr ⟨hs, hp⟩, hact⟩

theorem active_endSession {id : Int} {st : SessionStatus} (hst : st ≠ .active) (s : SessionRow) :
    (t.setSessionStatus (fun s => s.id == id) st).Active s ↔ t.Active s ∧ s.id ≠ id := by
  rw [active_setSessionStatus hst]; simp

theorem OnePerToken.setSessionStatus (h : t.OnePerToken) (p : SessionRow → Bool) {st : SessionStatus}
    (hst : st ≠ .active) : (t.setSessionStatus p st).OnePerToken :=
  h.updateWhere (fun a ha => by simp [SessionRow.isActive, hst] at ha) fun _ => rfl

section CreateSession

variable {now tokenId : Int} {mac ip expiresAt : String} {id : Int}

/-- What an insertion that succeeds requires and does: the token exists, and the active rows are the
new one and those of the other devices. -/
theorem createSession_ok (h : (t.createSession now tokenId mac ip expiresAt).1 = .ok id) :
    (∃ r ∈ t.token, r.id = tokenId) ∧ id = t.sessionSeq ∧
      (t.createSession now tokenId mac ip expiresAt).2 =
        { t.setSessionStatus (fun s => s.macAddress == mac && s.isActive) .disconnected with
          session := (t.setSessionStatus (fun s => s.macAddress == mac && s.isActive) .disconnected).session ++
            [t.newSession now tokenId mac ip expiresAt]
          sessionSeq := t.sessionSeq + 1 } := by
  unfold createSession at h ⊢
  split at h
  · rename_i hany
    obtain ⟨r, hr, hid⟩ := List.any_eq_true.1 hany
    rw [if_pos hany]
    exact ⟨⟨r, hr, by simpa using hid⟩, by cases h; rfl, rfl⟩
  · cases h

/-- A refused insertion is rolled back. -/
theorem createSession_error {e : Err} (h : (t.createSession now tokenId mac ip expiresAt).1 = .error e) :
    (t.createSession now tokenId mac ip expiresAt).2 = t := by
  unfold createSession at h ⊢
  split at h
  · cases h
  · rename_i hany
    rw [if_neg hany]

theorem createSession_of_token (now : Int) (mac ip expiresAt : String) (h : ∃ r ∈ t.token, r.id = tokenId) :
    (t.createSession now tokenId mac ip expiresAt).1 = .ok t.sessionSeq := by
  obtain ⟨r, hr, hid⟩ := h
  unfold createSession
  rw [if_pos (List.any_eq_true.2 ⟨r, hr, by simpa using hid⟩)]

theorem active_createSession (h : (t.createSession now tokenId mac ip expiresAt).1 = .ok id) (s : SessionRow) :
    (t.createSession now tokenId mac ip expiresAt).2.Active s ↔
      (t.Active s ∧ s.macAddress ≠ mac) ∨ s = t.newSession now tokenId mac ip expiresAt := by
  have old : (t.setSessionStatus (fun s => s.macAddress == mac && s.isActive) .disconnected).Active s ↔ _ :=
    active_setSessionStatus (by decide) s
  obtain ⟨-, -, he⟩ := createSession_ok h
  rw [he]
  unfold Active at old ⊢
  simp only [List.mem_append, List.mem_singleton]
  constructor
  · rintro ⟨hm | rfl, hact⟩
    · obtain ⟨h1, h2⟩ := old.1 ⟨hm, hact⟩
      refine .inl ⟨h1, fun e => ?_⟩
      simp [e, h1.2] at h2
    · exact .inr rfl
  · rintro (⟨h1, h2⟩ | rfl)
    · obtain ⟨h3, h4⟩ := old.2 ⟨h1, by simp [h2]⟩
      exact ⟨.inl h3, h4⟩
    · exact ⟨.inr rfl, rfl⟩

/-- Inserting keeps one active session per token when the token has none. -/
theorem OnePerToken.createSession (hu : t.OnePerToken)
    (h : (t.createSession now tokenId mac ip expiresAt).1 = .ok id)
    (hnone : ∀ s, t.Active s → s.macAddress ≠ mac → s.tokenId ≠ tokenId) :
    (t.createSession now tokenId mac ip expiresAt).2.OnePerToken := by
  intro a ha b hb pa pb hab
  rcases (active_createSession h a).1 ⟨ha, pa⟩ with ⟨h1, n1⟩ | rfl <;>
    rcases (active_createSession h b).1 ⟨hb, pb⟩ with ⟨h2, n2⟩ | rfl
  · exact hu.eq h1 h2 hab
  · exact absurd hab (hnone a h1 n1)
  · exact absurd hab.symm (hnone b h2 n2)
  · rfl

theorem length_createSession (h : (t.createSession now tokenId mac ip expiresAt).1 = .ok id) :
    (t.createSession now tokenId mac ip expiresAt).2.session.length = t.session.length + 1 := by
  obtain ⟨-, -, he⟩ := createSession_ok h
  rw [he]
  simp [setSessionStatus, updateWhere]

theorem token_createSession : (t.createSession now tokenId mac ip expiresAt).2.token = t.token := by
  unfold Tables.createSession
  split <;> rfl

end CreateSession

/-! ## Updates of the token table -/

theorem active_redeemToken {now tokenId : Int} {expiresAt : String} (s : SessionRow) :
    (t.redeemToken now tokenId expiresAt).Active s ↔ t.Active s := Iff.rfl

/-! ## Ending sessions together with their tokens -/

/-- `expire_session` and `expire_token` of one session. -/
def endSession (t : Tables) (s : SessionRow) : Tables := (t.expireSession s.id).expireToken s.tokenId

def endSessions (t : Tables) (gone : List SessionRow) : Tables := gone.foldl endSession t

theorem session_endSessions (gone : List SessionRow) : (t.endSessions gone).session =
    (t.setSessionStatus (fun s => (gone.map (·.id)).contains s.id) .expired).session := by
  unfold setSessionStatus
  rw [← foldl_updateWhere (by intro _; rfl) (by intro _; rfl)]
  induction gone generalizing t with
  | nil => rfl
  | cons g gone ih => exact ih (t := t.endSession g)

theorem token_endSessions (gone : List SessionRow) : (t.endSessions gone).token =
    updateWhere (fun r => (gone.map (·.tokenId)).contains r.id) (fun r => { r with status := .expired }) t.token := by
  rw [← foldl_updateWhere (by intro _; rfl) (by intro _; rfl)]
  induction gone generalizing t with
  | nil => rfl
  | cons g gone ih => exact ih (t := t.endSession g)

theorem active_endSessions {gone : List SessionRow} (s : SessionRow) :
    (t.endSessions gone).Active s ↔ t.Active s ∧ ∀ g ∈ gone, g.id ≠ s.id := by
  have h : (t.endSessions gone).Active s ↔
      (t.setSessionStatus (fun s => (gone.map (·.id)).contains s.id) .expired).Active s := by
    unfold Active
    rw [session_endSessions]
  rw [h, active_setSessionStatus (by decide)]
  simp

/-- Ending active rows leaves the other active rows. -/
theorem active_endSessions_of_active (hs : t.Schema) {gone : List SessionRow} (hg : ∀ g ∈ gone, t.Active g)
    (s : SessionRow) : (t.endSessions gone).Active s ↔ t.Active s ∧ s ∉ gone := by
  rw [active_endSessions]
  refine and_congr_right fun ha => ⟨fun hne hm => hne s hm rfl, fun hm g hgm he => ?_⟩
  rw [(hg g hgm).eq_of_id hs ha he] at hgm
  exact hm hgm

section EndSessions

variable {gone : List SessionRow} {s : SessionRow} {r : TokenRow}

theorem mem_session_endSessions (hs : s ∈ t.session) (hg : s ∈ gone) :
    { s with status := .expired } ∈ (t.endSessions gone).session := by
  rw [session_endSessions]
  refine mem_updateWhere.2 (.inl ⟨s, hs, ?_, rfl⟩)
  simpa using ⟨s, hg, rfl⟩

theorem mem_session_endSessions_of_ne (hs : s ∈ t.session) (hg : ∀ g ∈ gone, g.id ≠ s.id) :
    s ∈ (t.endSessions gone).session := by
  rw [session_endSessions]
  exact mem_updateWhere.2 (.inr ⟨hs, by simpa using hg⟩)

/-- A row marked as expired that was not so before is one of those ended. -/
theorem mem_of_expired_endSessions (hs : t.Schema) (hg : ∀ g ∈ gone, g ∈ t.session) (hm : s ∈ t.session)
    (hne : s.status ≠ .expired) (he : { s with status := .expired } ∈ (t.endSessions gone).session) : s ∈ gone := by
  rw [session_endSessions] at he
  rcases mem_updateWhere.1 he with ⟨a, ha, hp, he⟩ | ⟨he, -⟩
  · obtain ⟨g, hgm, hga⟩ : ∃ g ∈ gone, g.id = a.id := by simpa using hp
    have hid : a.id = s.id := (congrArg SessionRow.id he).symm
    rwa [eq_of_key hs.sessionId (hg g hgm) hm (hga.trans hid)] at hgm
  · exact absurd (congrArg SessionRow.status (eq_of_key hs.sessionId he hm rfl)).symm hne

theorem status_of_mem_endSessions (hr : r ∈ (t.endSessions gone).token) (hg : s ∈ gone) (hid : r.id = s.tokenId) :
    r.status = .expired := by
  rw [token_endSessions] at hr
  rcases mem_updateWhere.1 hr with ⟨a, -, -, rfl⟩ | ⟨-, hp⟩
  · rfl
  · have hn : ∀ g ∈ gone, g.tokenId ≠ r.id := by simpa using hp
    exact absurd hid.symm (hn s hg)

theorem mem_token_endSessions_of_ne (hr : r ∈ t.token) (hg : ∀ g ∈ gone, g.tokenId ≠ r.id) :
    r ∈ (t.endSessions gone).token := by
  rw [token_endSessions]
  exact mem_updateWhere.2 (.inr ⟨hr, by simpa using hg⟩)

/-- The token of an active session that is not ended stays as it is, when each token has one active session. -/
theorem mem_token_endSessions (hu : t.OnePerToken) (hg : ∀ g ∈ gone, t.Active g) (hs : t.Active s) (hm : s ∉ gone)
    (hr : r ∈ t.token) (hid : r.id = s.tokenId) : r ∈ (t.endSessions gone).token := by
  apply mem_token_endSessions_of_ne hr
  intro g hgm hgr
  rw [hu.eq (hg g hgm) hs (hgr.trans hid)] at hgm
  exact hm hgm

end EndSessions

end Tables

/-! ## A small shop, for runs on concrete data -/

/-- One plan of an hour and three unused tokens. -/
def shopTables : Tables where
  plan := [{ id := 1, name := "1 h", durationMinutes := 60, priceAriary := 500, active := true, createdAt := "" }]
  token := [(1, "AAAA"), (2, "BBBB"), (3, "CCCC")].map fun x =>
    { id := x.1, code := x.2, name := none, planId := 1, status := .unused, createdAt := "", redeemedAt := none,
      expiresAt := none }
  session := []
  auditLog := []
  setting := []
  planSeq := 2
  tokenSeq := 4
  sessionSeq := 1
  auditLogSeq := 1

def shop : Database :=
  ⟨shopTables, by decide, by decide, by decide, by decide, by decide, by decide, by decide, by decide, by decide,
    by decide⟩

end Didicafe
