/-
What the admin sees of the tokens and the sessions. A token that is active in its row has expired as soon as its expiry
has passed, also when the cleanup has not come to it yet: its effective status is what the filters of the paged list
select by and show. The REST API lists by the stored status.
-/
import Didicafe.Model.Admin
import Didicafe.Session.Calls
import Didicafe.Store.Devices

namespace Didicafe

open Effect Runs Table

/-- The status of a token at an instant. -/
def TokenRow.effectiveStatus (r : TokenRow) (now : Int) : TokenStatus :=
  if r.status = .active ∧ (Tables.hasExpired now r).holds = true then .expired else r.status

/-- The effective statuses that a filter asks for. -/
def selects : (statusFilter : Option String) → TokenStatus → Prop
  | some status, s => if status = "current" then s = .unused ∨ s = .active else status = s.text
  | none, _ => True

theorem TokenStatus.text_inj {a b : TokenStatus} (h : a.text = b.text) : a = b := by
  cases a <;> cases b <;> first | rfl | exact absurd h (by decide)

theorem TokenStatus.mem_all (a : TokenStatus) : a.text ∈ all := by cases a <;> decide

theorem TokenStatus.of_mem_all {text : String} (h : text ∈ all) : ∃ a : TokenStatus, text = a.text := by
  simp only [all, List.mem_cons, List.not_mem_nil, or_false] at h
  rcases h with rfl | rfl | rfl | rfl
  · exact ⟨.unused, rfl⟩
  · exact ⟨.active, rfl⟩
  · exact ⟨.expired, rfl⟩
  · exact ⟨.revoked, rfl⟩

/-- A single-status filter asks for this status. -/
theorem selects_text (a s : TokenStatus) : selects (some a.text) s ↔ s = a := by
  have hne : a.text ≠ "current" := by cases a <;> decide
  show (if a.text = "current" then _ else _) ↔ _
  rw [if_neg hne]
  exact ⟨fun h => (TokenStatus.text_inj h).symm, fun h => by rw [h]⟩

namespace Tables

variable {t : Tables} {now : Int} {r : TokenRow}

/-! ## One query -/

theorem mem_tokensWhere {cond : TokenRow → Cond} {shown : TokenRow → TokenStatus} {k : Token} :
    k ∈ t.tokensWhere cond shown ↔ ∃ r ∈ t.token, (cond r).holds = true ∧ ∃ j, t.joinToken r = some j ∧
      k = { j with status := shown r } := by
  unfold tokensWhere
  rw [List.mem_insertionSort, List.mem_filterMap]
  constructor
  · rintro ⟨r, hr, hk⟩
    obtain ⟨hr, hc⟩ := List.mem_filter.1 hr
    obtain ⟨j, hj, rfl⟩ := Option.map_eq_some_iff.1 hk
    exact ⟨r, hr, hc, j, hj, rfl⟩
  · rintro ⟨r, hr, hc, j, hj, rfl⟩
    exact ⟨r, List.mem_filter.2 ⟨hr, hc⟩, by rw [hj]; rfl⟩

/-- Every token has its plan, so the join loses no row. -/
theorem length_tokensWhere (hs : t.Schema) (cond : TokenRow → Cond) (shown : TokenRow → TokenStatus) :
    ((t.tokensWhere cond shown).length : Int) = t.countWhere cond := by
  unfold tokensWhere countWhere
  rw [List.length_insertionSort, List.length_filterMap_eq_countP, List.countP_filter]
  congr 1
  apply List.countP_congr
  intro r hr
  obtain ⟨j, hj, -⟩ := joinToken_some hs hr
  simp [hj]

theorem tokensWhere_congr {cond cond' : TokenRow → Cond} {shown shown' : TokenRow → TokenStatus}
    (hc : ∀ r ∈ t.token, (cond r).holds = (cond' r).holds)
    (hshown : ∀ r ∈ t.token, (cond r).holds = true → shown r = shown' r) :
    t.tokensWhere cond shown = t.tokensWhere cond' shown' := by
  unfold tokensWhere
  rw [List.filter_congr hc]
  congr 1
  apply List.filterMap_congr
  intro r hr
  obtain ⟨hr, hholds⟩ := List.mem_filter.1 hr
  rw [hshown r hr (by rw [hc r hr]; exact hholds)]

/-! ## The filters -/

/-- Active tokens have an expiry, which is written when they are redeemed. -/
def Dated (t : Tables) : Prop := ∀ r ∈ t.token, r.status = .active → r.expiresAt ≠ none

/-- With an expiry that is set, it has passed or is later. -/
theorem holds_expiresLater (h : r.expiresAt ≠ none) : (expiresLater now r).holds = !(hasExpired now r).holds := by
  obtain ⟨e, he⟩ := Option.ne_none_iff_exists'.1 h
  unfold expiresLater hasExpired
  rw [he]
  simp only [Option.map_some, Cond.holds_some]
  by_cases hle : e ≤ datetimeNow now
  · rw [decide_eq_true hle, decide_eq_false (String.not_lt.2 hle)]
    rfl
  · rw [decide_eq_false hle, decide_eq_true (String.not_le.1 hle)]
    rfl

@[simp] theorem holds_hasStatus {st : TokenStatus} : (hasStatus st r).holds = true ↔ r.status = st := by
  simp [hasStatus]

/-- The conditions of the queries say which status is effective. -/
theorem effectiveStatus_iff (now : Int) (hd : r.status = .active → r.expiresAt ≠ none) :
    (r.effectiveStatus now = .unused ↔ r.status = .unused) ∧
      (r.effectiveStatus now = .active ↔ r.status = .active ∧ (expiresLater now r).holds = true) ∧
      (r.effectiveStatus now = .expired ↔
        r.status = .expired ∨ r.status = .active ∧ (hasExpired now r).holds = true) ∧
      (r.effectiveStatus now = .revoked ↔ r.status = .revoked) := by
  unfold TokenRow.effectiveStatus
  by_cases ha : r.status = .active
  · rw [holds_expiresLater (hd ha)]
    by_cases he : (hasExpired now r).holds = true
    · simp [ha, he]
    · simp [ha, he]
  · simp [ha]

/-- Each filter has one condition, in its list and in its count: it selects the tokens by their effective status, and
shows it. -/
theorem listQuery_spec (now : Int) (f : Option String) : ∃ (cond : TokenRow → Cond) (shown : TokenRow → TokenStatus),
    (∀ t : Tables, t.listQuery now f = t.tokensWhere cond shown ∧ t.countQuery now f = t.countWhere cond) ∧
      ∀ r : TokenRow, (r.status = .active → r.expiresAt ≠ none) →
        ((cond r).holds = true ↔ selects f (r.effectiveStatus now)) ∧
          ((cond r).holds = true → shown r = r.effectiveStatus now) := by
  cases f with
  | none =>
    refine ⟨_, _, fun t => ⟨rfl, ?_⟩, fun r _ => ⟨?_, fun _ => ?_⟩⟩
    · show (t.token.length : Int) = _
      unfold countWhere
      simp
    · simp [selects]
    · simp [TokenRow.effectiveStatus]
  | some text =>
    by_cases hcur : text = "current"
    · subst hcur
      refine ⟨_, _, fun t => ⟨rfl, rfl⟩, fun r hd => ?_⟩
      obtain ⟨hu, ha, -, -⟩ := effectiveStatus_iff now hd
      simp only [Cond.holds_or, Cond.holds_and, Bool.or_eq_true, Bool.and_eq_true, holds_hasStatus]
      refine ⟨(or_congr hu ha).symm, ?_⟩
      rintro (h | h)
      · rw [h, hu.2 h]
      · rw [h.1, ha.2 h]
    · by_cases hact : text = "active"
      · subst hact
        refine ⟨_, _, fun t => ⟨rfl, rfl⟩, fun r hd => ?_⟩
        obtain ⟨-, ha, -, -⟩ := effectiveStatus_iff now hd
        simp only [Cond.holds_and, Bool.and_eq_true, holds_hasStatus]
        exact ⟨ha.symm.trans (selects_text .active _).symm, fun h => by rw [h.1, ha.2 h]⟩
      · by_cases hexp : text = "expired"
        · subst hexp
          refine ⟨_, _, fun t => ⟨rfl, rfl⟩, fun r hd => ?_⟩
          obtain ⟨-, -, he, -⟩ := effectiveStatus_iff now hd
          simp only [Cond.holds_or, Cond.holds_and, Bool.or_eq_true, Bool.and_eq_true, holds_hasStatus]
          exact ⟨he.symm.trans (selects_text .expired _).symm, fun h => (he.2 h).symm⟩
        · refine ⟨fun r => some (r.status.text == text), (·.status), fun t => ?_, fun r hd => ?_⟩
          · simp only [listQuery, countQuery, hcur, hact, hexp, if_false]
            exact ⟨rfl, rfl⟩
          · have hsel : selects (some text) (r.effectiveStatus now) ↔ text = (r.effectiveStatus now).text := by
              show (if text = "current" then _ else _) ↔ _
              rw [if_neg hcur]
            rw [hsel, Cond.holds_some, beq_iff_eq]
            unfold TokenRow.effectiveStatus
            split
            · -- the text is neither the stored status nor the effective one
              rename_i h
              rw [h.1]
              exact ⟨iff_of_false (Ne.symm hact) hexp, fun h => absurd h.symm hact⟩
            · exact ⟨eq_comm, fun _ => rfl⟩

/-! ## What a filter selects -/

variable {f : Option String}

/-- The unpaged list of a filter: the tokens whose effective status it asks for, with this status. -/
theorem mem_listQuery (hd : t.Dated) {k : Token} :
    k ∈ t.listQuery now f ↔ ∃ r ∈ t.token, selects f (r.effectiveStatus now) ∧
      ∃ j, t.joinToken r = some j ∧ k = { j with status := r.effectiveStatus now } := by
  obtain ⟨cond, shown, hq, hspec⟩ := listQuery_spec now f
  rw [(hq t).1, mem_tokensWhere]
  constructor
  · rintro ⟨r, hr, hc, j, hj, rfl⟩
    obtain ⟨hsel, hshown⟩ := hspec r (hd r hr)
    exact ⟨r, hr, hsel.1 hc, j, hj, by rw [hshown hc]⟩
  · rintro ⟨r, hr, hs, j, hj, rfl⟩
    obtain ⟨hsel, hshown⟩ := hspec r (hd r hr)
    exact ⟨r, hr, hsel.2 hs, j, hj, by rw [hshown (hsel.2 hs)]⟩

theorem countQuery_eq (hs : t.Schema) (now : Int) (f : Option String) :
    t.countQuery now f = (t.listQuery now f).length := by
  obtain ⟨cond, shown, hq, -⟩ := listQuery_spec now f
  rw [(hq t).1, (hq t).2, length_tokensWhere hs]

/-- The list of a filter has the token with this id. -/
def Selects (t : Tables) (now : Int) (f : Option String) (id : Int) : Prop := ∃ k ∈ t.listQuery now f, k.id = id

theorem selects_iff (hs : t.Schema) (hd : t.Dated) (hr : r ∈ t.token) :
    t.Selects now f r.id ↔ selects f (r.effectiveStatus now) := by
  constructor
  · rintro ⟨k, hk, hid⟩
    obtain ⟨r', hr', hsel, j, hj, rfl⟩ := (mem_listQuery hd).1 hk
    have hrow : j.id = r'.id := congrArg TokenRow.id (joinToken_row hj)
    rw [eq_of_key hs.tokenId hr hr' (hid.symm.trans hrow)]
    exact hsel
  · intro hsel
    obtain ⟨j, hj, hrow⟩ := joinToken_some hs hr
    have hid : j.id = r.id := congrArg TokenRow.id hrow
    exact ⟨_, (mem_listQuery hd).2 ⟨r, hr, hsel, j, hj, rfl⟩, hid⟩

theorem Selects.row (hd : t.Dated) {id : Int} (h : t.Selects now f id) : ∃ r ∈ t.token, r.id = id := by
  obtain ⟨k, hk, rfl⟩ := h
  obtain ⟨r, hr, -, j, hj, rfl⟩ := (mem_listQuery hd).1 hk
  exact ⟨r, hr, (congrArg TokenRow.id (joinToken_row hj)).symm⟩

end Tables

/-! ## The partition of the tokens -/

/-- Every statement keeps the expiries of active tokens. -/
theorem Sql.dated {t : Tables} (h : t.Dated) (now : Int) (q : Sql) : (q.run now t).2.Dated := by
  cases q with
  | createToken code name planId =>
    show (t.createToken now code name planId).2.Dated
    unfold Tables.createToken
    split
    · exact h
    · split
      · intro r hr ha
        rcases List.mem_append.1 hr with hr | hr
        · exact h r hr ha
        · rw [List.mem_singleton.1 hr] at ha
          cases ha
      · exact h
  | redeemToken tokenId expiresAt => exact forall_updateWhere h fun r _ _ _ => Option.some_ne_none expiresAt
  | expireToken tokenId => exact forall_updateWhere h fun r _ _ ha => nomatch ha
  | revokeToken tokenId => exact forall_updateWhere h fun r _ _ ha => nomatch ha
  | createSession tokenId mac ip expiresAt =>
    intro r hr
    rw [show (Sql.run now t (.createSession tokenId mac ip expiresAt)).2.token = t.token from
      Tables.token_createSession] at hr
    exact h r hr
  | deleteOrphanTokens => exact fun r hr => h r (mem_deleteWhere.1 hr).1
  | _ => exact h

/-- Statements on a database that starts without active tokens. -/
def tokenStatements : Machine Clocked StatementEvent :=
  ⟨fun c => ∀ r ∈ c.db.tables.token, r.status ≠ .active, StatementEvent.step⟩

theorem dated_of_reach {c : Clocked} (h : Reach tokenStatements Free c) : c.db.tables.Dated := by
  apply h.invariant (I := fun c => c.db.tables.Dated)
  · exact fun c h0 r hr ha => absurd ha (h0 r hr)
  · intro c e c' hi _ hs
    cases e with
    | run q => cases hs; exact Sql.dated hi _ q
    | elapse nanos => cases hs; exact hi

/-- The four single-status filters partition the tokens, `current` selects the unused and the active ones, and the
total of each page is the length of the unpaged list; every token is shown with the status whose filter selects it. -/
structure StatusFilters (w : World) : Prop where
  disjoint : ∀ a ∈ TokenStatus.all, ∀ b ∈ TokenStatus.all, ∀ id, w.db.tables.Selects w.now (some a) id →
    w.db.tables.Selects w.now (some b) id → a = b
  cover : ∀ r ∈ w.db.tables.token, ∃ a ∈ TokenStatus.all, w.db.tables.Selects w.now (some a) r.id
  current : ∀ id, w.db.tables.Selects w.now (some "current") id ↔
    w.db.tables.Selects w.now (some "unused") id ∨ w.db.tables.Selects w.now (some "active") id
  paged : ∀ f page perPage, Fallible.exec noFault (listTokensPaged f page perPage) w =
    (.ok (limitOffset perPage ((page - 1) * perPage) (w.db.tables.listQuery w.now f),
      (w.db.tables.listQuery w.now f).length), w)
  shown : ∀ f, ∀ k ∈ w.db.tables.listQuery w.now f, ∀ a ∈ TokenStatus.all,
    w.db.tables.Selects w.now (some a) k.id ↔ k.status.text = a

theorem exec_listTokensPaged (w : World) (f : Option String) (page perPage : Int) :
    Fallible.exec noFault (listTokensPaged f page perPage) w =
      (.ok (limitOffset perPage ((page - 1) * perPage) (w.db.tables.listQuery w.now f),
        (w.db.tables.listQuery w.now f).length), w) := by
  unfold listTokensPaged
  simp only
  rw [Fallible.exec_bind_ok _ (exec_query w rfl rfl), Fallible.exec_bind_ok _ (exec_query w rfl rfl),
    Fallible.exec_pure, Tables.countQuery_eq w.db.schema]

theorem statusFilters_of_reach {c : Clocked} (h : Reach tokenStatements Free c) (now : Int) (set : AuthSet) :
    StatusFilters ⟨now, c.db, set⟩ := by
  have hd := dated_of_reach h
  have hs := c.db.schema
  constructor
  case disjoint =>
    intro a ha b hb id hsa hsb
    obtain ⟨a, rfl⟩ := TokenStatus.of_mem_all ha
    obtain ⟨b, rfl⟩ := TokenStatus.of_mem_all hb
    obtain ⟨r, hr, rfl⟩ := hsa.row hd
    rw [Tables.selects_iff hs hd hr, selects_text] at hsa hsb
    rw [← hsa, ← hsb]
  case cover =>
    intro r hr
    refine ⟨_, TokenStatus.mem_all (r.effectiveStatus now), ?_⟩
    rw [Tables.selects_iff hs hd hr, selects_text]
  case current =>
    intro id
    by_cases hid : ∃ r ∈ c.db.tables.token, r.id = id
    · obtain ⟨r, hr, rfl⟩ := hid
      rw [Tables.selects_iff hs hd hr, Tables.selects_iff hs hd hr, Tables.selects_iff hs hd hr]
      exact (or_congr (selects_text .unused _) (selects_text .active _)).symm
    · refine iff_of_false (fun h => hid (h.row hd)) ?_
      rintro (h | h)
      · exact hid (h.row hd)
      · exact hid (h.row hd)
  case paged => exact exec_listTokensPaged _
  case shown =>
    intro f k hk a ha
    obtain ⟨a, rfl⟩ := TokenStatus.of_mem_all ha
    obtain ⟨r, hr, -, j, hj, rfl⟩ := (Tables.mem_listQuery hd).1 hk
    rw [show j.id = r.id from congrArg TokenRow.id (Tables.joinToken_row hj), Tables.selects_iff hs hd hr, selects_text]
    exact ⟨fun h => by rw [h], fun h => TokenStatus.text_inj h⟩

/-- The two sales of one device, in the middle of the second: one token has expired, one is active and one unused. -/
theorem statusFilters_twoSessions : ∃ c, tokenStatements.trace .opening twoSessions = some c ∧
    StatusFilters ⟨c.now, c.db, TimedSet.empty⟩ := by
  have unsold : ∀ r ∈ shop.tables.token, r.status ≠ .active := by decide
  have start : Reach tokenStatements Free .opening := .start unsold
  exact ⟨_, rfl, statusFilters_of_reach (Machine.reach_trace start (t := twoSessions) rfl) _ _⟩

/-! ## The REST API beside the pages -/

namespace World

/-- A page of the paged list. -/
def tokenPage (w : World) (f : Option String) (perPage page : Int) : TokenPage :=
  let r := (Fallible.exec noFault (listTokensPaged f page perPage) w).1.toOption.getD ([], 0)
  { tokens := r.1, total := r.2, page := page, perPage := perPage, statusFilter := f.getD "all" }

/-- The tokens of all pages, as many as the first page says. -/
def allPages (w : World) (f : Option String) (perPage : Int) : List Token :=
  (List.range (w.tokenPage f perPage 1).totalPages.toNat).flatMap fun i : Nat => (w.tokenPage f perPage (i + 1)).tokens

theorem tokenPage_eq (w : World) (f : Option String) (perPage page : Int) : w.tokenPage f perPage page =
    { tokens := limitOffset perPage ((page - 1) * perPage) (w.db.tables.listQuery w.now f),
      total := (w.db.tables.listQuery w.now f).length, page := page, perPage := perPage,
      statusFilter := f.getD "all" } := by
  unfold tokenPage
  rw [exec_listTokensPaged]
  rfl

/-- All pages together are the unpaged list. -/
theorem allPages_eq (w : World) (f : Option String) {perPage : Int} (hper : 0 < perPage) :
    w.allPages f perPage = w.db.tables.listQuery w.now f := by
  unfold allPages
  simp only [tokenPage_eq, TokenPage.totalPages, if_neg (show ¬ perPage ≤ 0 by omega), Int.add_sub_cancel]
  exact flatMap_pages hper _

end World

/-- The API shows the sessions that the pages show, as many as the statistics count, and under each filter the tokens
of the paged list with the same status. -/
structure ViewsAgree (w : World) : Prop where
  sessions : ∃ api live, Fallible.exec noFault apiListSessions w = (.ok api, w) ∧
    Fallible.exec noFault (sql .getLiveSessions) w = (.ok live, w) ∧ api.Perm live ∧
    ∀ stats w', Fallible.exec noFault getDailyStats w = (.ok stats, w') → stats.activeSessions = api.length
  tokens : ∀ f, (∀ text ∈ f, text ∈ TokenStatus.all) → ∃ api,
    Fallible.exec noFault (apiListTokens f) w = (.ok api, w) ∧
      ∀ perPage, 0 < perPage → api.Perm (w.allPages f perPage)

/-- No session and no token is active past its expiry, or without one. -/
structure NothingOverdue (w : World) : Prop where
  sessions : ∀ s, w.db.tables.Active s → s.EndsAfter w.now
  tokens : ∀ r ∈ w.db.tables.token, r.status = .active → (Tables.expiresLater w.now r).holds = true

theorem activeSessions_getDailyStats {w w' : World} {stats : DailyStats}
    (h : Fallible.exec noFault getDailyStats w = (.ok stats, w')) :
    stats.activeSessions = w.db.tables.countLiveSessions w.now := by
  unfold getDailyStats at h
  rw [Fallible.exec_bind_ok _ (exec_query w rfl rfl), Fallible.exec_bind_ok _ (exec_query w rfl rfl)] at h
  obtain ⟨revenue, _, -, h⟩ := Fallible.exec_bind_inv _ h
  cases h
  rfl

theorem exec_apiListTokens (w : World) {f : Option String} (hf : ∀ text ∈ f, text ∈ TokenStatus.all) :
    Fallible.exec noFault (apiListTokens f) w = (.ok (w.db.tables.listTokens w.now f), w) := by
  cases f with
  | none => exact Api.exec_internal_query w rfl rfl
  | some text =>
    show Fallible.exec noFault (if text ∈ TokenStatus.all then _ else _) w = _
    rw [if_pos (hf text rfl)]
    exact Api.exec_internal_query w rfl rfl

namespace Tables

variable {t : Tables} {now : Int}

/-- The live sessions are counted without the joins, which lose none of them. -/
theorem length_sessionLive (hs : t.Schema) (now : Int) :
    ((t.sessionLive now).length : Int) = t.countLiveSessions now := by
  unfold sessionLive countLiveSessions
  rw [← List.length_map (f := fun s : Session => s.toSessionRow), map_sessionsWhere hs, List.countP_eq_length_filter]

/-- When nothing is overdue, the active sessions are the live ones. -/
theorem sessionActive_eq (h : ∀ s, t.Active s → s.EndsAfter now) : t.sessionActive = t.sessionLive now := by
  unfold sessionActive sessionLive sessionsWhere
  congr 1
  apply List.filter_congr
  intro s hm
  by_cases ha : s.isActive = true
  · have hend : datetimeNow now < s.expiresAt := h s ⟨hm, ha⟩
    simp [ha, hend]
  · simp [ha]

/-- When nothing is overdue, the stored status of a token is the effective one. -/
theorem listTokens_eq (h : ∀ r ∈ t.token, r.status = .active → (expiresLater now r).holds = true) {f : Option String}
    (hf : ∀ text ∈ f, text ∈ TokenStatus.all) : t.listTokens now f = t.listQuery now f := by
  cases f with
  | none => rfl
  | some text =>
    obtain ⟨a, rfl⟩ := TokenStatus.of_mem_all (hf text rfl)
    have notExpired (r : TokenRow) (hr : r ∈ t.token) (ha : r.status = .active) : (hasExpired now r).holds = false := by
      have hl := h r hr ha
      have hne : r.expiresAt ≠ none := by
        intro hnone
        simp [expiresLater, hnone] at hl
      rw [holds_expiresLater hne] at hl
      simpa using hl
    cases a with
    | unused => rfl
    | revoked => rfl
    | active =>
      refine tokensWhere_congr (fun r hr => ?_) fun _ _ _ => rfl
      rw [Bool.eq_iff_iff, Cond.holds_some, beq_iff_eq, Cond.holds_and, Bool.and_eq_true, holds_hasStatus]
      refine ⟨fun he => ?_, fun he => congrArg _ he.1⟩
      have ha : r.status = .active := TokenStatus.text_inj he
      exact ⟨ha, h r hr ha⟩
    | expired =>
      refine tokensWhere_congr (fun r hr => ?_) fun r _ he => ?_
      · rw [Bool.eq_iff_iff, Cond.holds_some, beq_iff_eq, Cond.holds_or, Cond.holds_and, Bool.or_eq_true,
          Bool.and_eq_true, holds_hasStatus, holds_hasStatus]
        refine ⟨fun he => .inl (TokenStatus.text_inj he), ?_⟩
        rintro (he | ⟨ha, he⟩)
        · exact congrArg _ he
        · rw [notExpired r hr ha] at he
          cases he
      · rw [Cond.holds_some, beq_iff_eq] at he
        exact TokenStatus.text_inj he

end Tables

theorem exec_apiListSessions (w : World) :
    Fallible.exec noFault apiListSessions w = (.ok w.db.tables.sessionActive, w) :=
  Api.exec_internal_query w rfl rfl

theorem exec_getLiveSessions (w : World) :
    Fallible.exec noFault (sql .getLiveSessions) w = (.ok (w.db.tables.sessionLive w.now), w) :=
  exec_query w rfl rfl

/-- A session that the pages show is live. -/
theorem ViewsAgree.endsAfter {w : World} (h : ViewsAgree w) {s : SessionRow} (ha : w.db.tables.Active s) :
    s.EndsAfter w.now := by
  obtain ⟨api, live, hapi, hlive, hperm, -⟩ := h.sessions
  rw [exec_apiListSessions] at hapi
  rw [exec_getLiveSessions] at hlive
  cases hapi
  cases hlive
  obtain ⟨k, hk, rfl⟩ := Tables.exists_sessionsWhere w.db.schema (p := SessionRow.isActive) ha.1 ha.2
  have hp := (Tables.mem_sessionsWhere (hperm.subset hk)).2
  rw [Bool.and_eq_true, decide_eq_true_iff] at hp
  exact hp.2

/-- A token that the pages show as active has time left. -/
theorem ViewsAgree.expiresLater {w : World} (h : ViewsAgree w) {r : TokenRow} (hr : r ∈ w.db.tables.token)
    (ha : r.status = .active) : (Tables.expiresLater w.now r).holds = true := by
  have hs := w.db.schema
  obtain ⟨api, hapi, hperm⟩ := h.tokens (some "active") (by rintro _ ⟨⟩; decide)
  rw [exec_apiListTokens w (by rintro _ ⟨⟩; decide)] at hapi
  cases hapi
  have hperm := hperm 1 (by decide)
  rw [World.allPages_eq w _ (by decide)] at hperm
  obtain ⟨j, hj, hrow⟩ := Tables.joinToken_some hs hr
  have hmem : { j with status := r.status } ∈ w.db.tables.listTokens w.now (some "active") := by
    refine Tables.mem_tokensWhere.2 ⟨r, hr, ?_, j, hj, rfl⟩
    rw [ha]
    rfl
  -- the row on the page with the same id is the same row
  obtain ⟨r', hr', hc, j', hj', he⟩ := Tables.mem_tokensWhere.1 (hperm.subset hmem)
  have hid := congrArg (fun k : Token => k.id) he
  change j.id = j'.id at hid
  rw [hrow, Tables.joinToken_row hj'] at hid
  rw [eq_of_key hs.tokenId hr hr' hid]
  rw [Cond.holds_and, Bool.and_eq_true] at hc
  exact hc.2

/-- The API and the pages agree exactly when nothing is overdue. -/
theorem viewsAgree_iff (w : World) : ViewsAgree w ↔ NothingOverdue w := by
  constructor
  · intro h
    exact ⟨fun s ha => h.endsAfter ha, fun r hr ha => h.expiresLater hr ha⟩
  · intro h
    have hsame := Tables.sessionActive_eq h.sessions
    constructor
    · refine ⟨_, _, exec_apiListSessions w, exec_getLiveSessions w, hsame ▸ .refl _, fun stats w' hx => ?_⟩
      rw [activeSessions_getDailyStats hx, hsame, Tables.length_sessionLive w.db.schema]
    · intro f hf
      refine ⟨_, exec_apiListTokens w hf, fun perPage hper => ?_⟩
      rw [World.allPages_eq w f hper, Tables.listTokens_eq h.tokens hf]

/-- An hour after the first sale has run out, before the cleanup: the API still lists its session. -/
theorem overdue_not_viewsAgree : ¬ ∀ w : World, ViewsAgree w := by
  intro h
  obtain ⟨api, live, hapi, hlive, hperm, -⟩ := (h (.later .firstSale 7200)).sessions
  rw [exec_apiListSessions] at hapi
  rw [exec_getLiveSessions] at hlive
  cases hapi
  cases hlive
  exact absurd hperm.length_eq (by decide)

end Didicafe
