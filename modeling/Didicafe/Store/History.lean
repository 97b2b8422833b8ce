/-
What becomes of a row, whatever runs. Ids are never given again. A plan stays; a token keeps its code, its name and its
plan; a session keeps the device, the address and the time it was opened for, and once it has ended it is never active
again. So what an admin or a client was shown under an id is what the id means later, or the id means nothing.
-/
import Didicafe.Daemon.House
import Didicafe.Lib.Chronicle

namespace Didicafe

open Effect Runs Table

/-! ## Rows -/

/-- What an edit leaves of a plan, besides its id. -/
def Plan.Edited (p p' : Plan) : Prop := p'.createdAt = p.createdAt

/-- What time leaves of a token, besides its id. -/
structure TokenRow.Aged (r r' : TokenRow) : Prop where
  code : r'.code = r.code
  name : r'.name = r.name
  planId : r'.planId = r.planId
  createdAt : r'.createdAt = r.createdAt
  /-- A code that is unused has been left alone. -/
  unused : r'.status = .unused → r' = r
  redeemedAt : r.redeemedAt.isSome = true → r'.redeemedAt.isSome = true
  expiresAt : r.expiresAt.isSome = true → r'.expiresAt.isSome = true

/-- What time leaves of a session, besides its id: everything but the status. -/
structure SessionRow.Aged (s s' : SessionRow) : Prop where
  row : s' = { s with status := s'.status }
  ended : s'.isActive = true → s.isActive = true

@[simp] theorem Plan.Edited.refl (p : Plan) : p.Edited p := rfl

theorem Plan.Edited.trans {p p' p'' : Plan} (h : p.Edited p') (h' : p'.Edited p'') : p.Edited p'' := Eq.trans h' h

namespace TokenRow.Aged

@[simp] theorem refl (r : TokenRow) : r.Aged r := ⟨rfl, rfl, rfl, rfl, fun _ => rfl, fun h => h, fun h => h⟩

theorem trans {r r' r'' : TokenRow} (h : r.Aged r') (h' : r'.Aged r'') : r.Aged r'' where
  code := h'.code.trans h.code
  name := h'.name.trans h.name
  planId := h'.planId.trans h.planId
  createdAt := h'.createdAt.trans h.createdAt
  unused hu := by
    obtain rfl := h'.unused hu
    exact h.unused hu
  redeemedAt hr := h'.redeemedAt (h.redeemedAt hr)
  expiresAt hr := h'.expiresAt (h.expiresAt hr)

end TokenRow.Aged

namespace SessionRow.Aged

@[simp] theorem refl (s : SessionRow) : s.Aged s := ⟨rfl, fun h => h⟩

theorem trans {s s' s'' : SessionRow} (h : s.Aged s') (h' : s'.Aged s'') : s.Aged s'' where
  row := by rw [h'.row, h.row]
  ended hs := h.ended (h'.ended hs)

end SessionRow.Aged

/-! ## Tables -/

/-- From one state of the tables to a later one. -/
structure Tables.History (t t' : Tables) : Prop where
  plan : Evolves (·.id) Plan.Edited t.plan t.planSeq t'.plan t'.planSeq
  /-- No plan is deleted. -/
  plans : ∀ p ∈ t.plan, ∃ p' ∈ t'.plan, p'.id = p.id
  token : Evolves (·.id) TokenRow.Aged t.token t.tokenSeq t'.token t'.tokenSeq
  session : Evolves (·.id) SessionRow.Aged t.session t.sessionSeq t'.session t'.sessionSeq

namespace Tables.History

variable {t t' t'' : Tables}

@[simp] theorem refl (t : Tables) : t.History t where
  plan := .refl .refl ..
  plans p hp := ⟨p, hp, rfl⟩
  token := .refl .refl ..
  session := .refl .refl ..

theorem trans (h : t.History t') (h' : t'.History t'') : t.History t'' where
  plan := h.plan.trans .trans h'.plan
  plans p hp := by
    obtain ⟨p', hp', hid⟩ := h.plans p hp
    obtain ⟨p'', hp'', hid'⟩ := h'.plans p' hp'
    exact ⟨p'', hp'', hid'.trans hid⟩
  token := h.token.trans .trans h'.token
  session := h.session.trans .trans h'.session

theorem of_plan {rows : List Plan} {seq : Int} (h : Evolves (·.id) Plan.Edited t.plan t.planSeq rows seq)
    (hkept : ∀ p ∈ t.plan, ∃ p' ∈ rows, p'.id = p.id) : t.History { t with plan := rows, planSeq := seq } :=
  { History.refl t with plan := h, plans := hkept }

theorem of_token {rows : List TokenRow} {seq : Int} (h : Evolves (·.id) TokenRow.Aged t.token t.tokenSeq rows seq) :
    t.History { t with token := rows, tokenSeq := seq } := { History.refl t with token := h }

theorem of_session {rows : List SessionRow} {seq : Int}
    (h : Evolves (·.id) SessionRow.Aged t.session t.sessionSeq rows seq) :
    t.History { t with session := rows, sessionSeq := seq } := { History.refl t with session := h }

/-! ### Statements -/

theorem updatePlan (id : Int) (name : String) (durationMinutes priceAriary : Int) (active : Bool) :
    t.History (t.updatePlan id name durationMinutes priceAriary active) := by
  refine of_plan (.updateWhere .refl (fun _ => rfl) fun p _ _ => Eq.refl p.createdAt) fun p hp => ?_
  have ids : (updateWhere (fun p : Plan => p.id == id)
      (fun p => { p with
        name := name, durationMinutes := durationMinutes, priceAriary := priceAriary, active := active })
      t.plan).map (·.id) = t.plan.map (·.id) := map_updateWhere (by intro _; rfl) _
  exact List.mem_map.1 (ids ▸ List.mem_map_of_mem hp)

theorem updateToken {p : TokenRow → Bool} {f : TokenRow → TokenRow} (hid : ∀ r, (f r).id = r.id)
    (hf : ∀ r : TokenRow, r.Aged (f r)) : t.History { t with token := updateWhere p f t.token } :=
  of_token (.updateWhere .refl hid fun r _ _ => hf r)

theorem setSessionStatus (p : SessionRow → Bool) {st : SessionStatus} (hst : st ≠ .active) :
    t.History (t.setSessionStatus p st) := by
  refine of_session (.updateWhere .refl (fun _ => rfl) fun s _ _ => ⟨rfl, fun hs => ?_⟩)
  exact absurd (by simpa [SessionRow.isActive] using hs) hst

theorem createToken (now : Int) (code : String) (name : Option String) (planId : Int) :
    t.History (t.createToken now code name planId).2 := by
  unfold Tables.createToken
  split
  · exact .refl t
  split
  · exact of_token (.append .refl rfl (Int.le_add_one le_rfl))
  · exact .refl t

theorem createSession (now tokenId : Int) (mac ip expiresAt : String) :
    t.History (t.createSession now tokenId mac ip expiresAt).2 := by
  unfold Tables.createSession
  split
  · exact (setSessionStatus _ (by decide)).trans (of_session (.append .refl rfl (Int.le_add_one le_rfl)))
  · exact .refl t

theorem run (now : Int) (q : Sql) : t.History (q.run now t).2 := by
  cases q with
  | createPlan =>
    exact of_plan (.append .refl rfl (Int.le_add_one le_rfl)) fun p hp => ⟨p, List.mem_append_left _ hp, rfl⟩
  | updatePlan => exact updatePlan ..
  | createToken => exact createToken ..
  | redeemToken =>
    exact updateToken (fun _ => rfl) fun r => ⟨rfl, rfl, rfl, rfl, nofun, fun _ => rfl, fun _ => rfl⟩
  | expireToken => exact updateToken (fun _ => rfl) fun r => ⟨rfl, rfl, rfl, rfl, nofun, fun h => h, fun h => h⟩
  | revokeToken => exact updateToken (fun _ => rfl) fun r => ⟨rfl, rfl, rfl, rfl, nofun, fun h => h, fun h => h⟩
  | createSession => exact createSession ..
  | expireSession => exact setSessionStatus _ (by decide)
  | disconnectSession => exact setSessionStatus _ (by decide)
  | deleteEndedSessions => exact of_session (.deleteWhere .refl _)
  | deleteOrphanTokens => exact of_token (.deleteWhere .refl _)
  | auditLog | setSetting => exact { History.refl t with }
  | _ => exact .refl t

end Tables.History

/-! ## Runs -/

theorem World.history_exec (fault : Option Err) (op : Op) (w : World) :
    w.db.tables.History (World.exec fault op w).2.db.tables := by
  cases fault with
  | some e =>
    rw [World.exec_some]
    exact .refl _
  | none =>
    cases op with
    | utcNow | nft => exact .refl _
    | sql q => exact .run w.now q

theorem House.history_step {c : CafeConfig} {s s' : House c} {l : HouseLabel c} (hs : (house c).step s l = some s') :
    s.shared.db.tables.History s'.shared.db.tables := by
  cases l with
  | start | elapse =>
    cases hs
    exact .refl _
  | advance i fault =>
    obtain ⟨t, ⟨rest, w⟩, ht, hstep, rfl⟩ := Pool.advance_some hs
    cases hrest : t.rest with
    | done a =>
      rw [hrest] at hstep
      cases hstep
    | call op k =>
      rw [hrest] at hstep
      cases hstep
      exact World.history_exec fault op s.shared

theorem House.history {c : CafeConfig} {s s' : House c} (hp : Path (house c) Free s s') :
    s.shared.db.tables.History s'.shared.db.tables :=
  hp.invariant (I := fun s' => s.shared.db.tables.History s'.shared.db.tables)
    (fun _ _ _ h _ hs => h.trans (history_step hs)) (.refl _)

/-! ## What an id names -/

namespace Tables

variable {t t' : Tables} {id : Int}

theorem planById_some {p : Plan} (h : t.planById id = some p) : p ∈ t.plan ∧ p.id = id :=
  ⟨List.mem_of_find?_eq_some h, by simpa using List.find?_some h⟩

theorem tokenById_some {r : Token} (h : t.tokenById id = some r) : r.toTokenRow ∈ t.token ∧ r.id = id := by
  obtain ⟨row, hrow, hr⟩ := Option.bind_eq_some_iff.1 h
  have hr := joinToken_row hr
  exact ⟨hr ▸ List.mem_of_find?_eq_some hrow, by simpa [hr] using List.find?_some hrow⟩

theorem tokenById_none (hs : t.Schema) (h : t.tokenById id = none) : ∀ r ∈ t.token, r.id ≠ id := by
  rintro r hr rfl
  have hf : t.token.find? (fun r' => r'.id == r.id) = some r := (find_key_iff hs.tokenId).2 ⟨hr, rfl⟩
  obtain ⟨k, hk, -⟩ := joinToken_some hs hr
  rw [tokenById, hf, Option.bind_some, hk] at h
  cases h

/-- What the queries by id answer later. -/
structure Means (t t' : Tables) : Prop where
  plan : ∀ id p, t.planById id = some p → ∃ p', t'.planById id = some p' ∧ p.Edited p'
  token : ∀ id r r', t.tokenById id = some r → t'.tokenById id = some r' → r.toTokenRow.Aged r'.toTokenRow
  tokenGone : ∀ id < t.tokenSeq, t.tokenById id = none → t'.tokenById id = none
  session : ∀ id s s', t.sessionById id = some s → t'.sessionById id = some s' →
    s.toSessionRow.Aged s'.toSessionRow
  sessionGone : ∀ id < t.sessionSeq, t.sessionById id = none → t'.sessionById id = none

theorem History.means (h : t.History t') (hs : t.Schema) (hs' : t'.Schema) : t.Means t' where
  plan id p hp := by
    obtain ⟨hmem, rfl⟩ := planById_some hp
    obtain ⟨p', hp', hid⟩ := h.plans p hmem
    exact ⟨p', (find_key_iff hs'.planId).2 ⟨hp', hid⟩, h.plan.same hs.planId hs.planSeq hmem hp' hid⟩
  token id r r' hr hr' := by
    obtain ⟨hmem, hid⟩ := tokenById_some hr
    obtain ⟨hmem', hid'⟩ := tokenById_some hr'
    exact h.token.same hs.tokenId hs.tokenSeq hmem hmem' (hid'.trans hid.symm)
  tokenGone id hlt hnone := by
    cases hr : t'.tokenById id with
    | none => rfl
    | some r =>
      obtain ⟨hmem, hid⟩ := tokenById_some hr
      exact absurd hid (h.token.not_again hlt (tokenById_none hs hnone) _ hmem)
  session id s s' hk hk' := by
    obtain ⟨hmem, hid⟩ := sessionById_some hk
    obtain ⟨hmem', hid'⟩ := sessionById_some hk'
    exact h.session.same hs.sessionId hs.sessionSeq hmem hmem' (hid'.trans hid.symm)
  sessionGone id hlt hnone := by
    cases hk : t'.sessionById id with
    | none => rfl
    | some k =>
      obtain ⟨hmem, hid⟩ := sessionById_some hk
      exact absurd hid (h.session.not_again hlt (sessionById_none hs hnone) _ hmem)

end Tables

/-- What an id names at any moment of a run it names at every later one, or nothing any more. -/
theorem ids_mean_the_same {c : CafeConfig} {s s' : House c} (hp : Path (house c) Free s s') :
    s.shared.db.tables.Means s'.shared.db.tables :=
  (House.history hp).means s.shared.db.schema s'.shared.db.schema

/-- A plan, two of its tokens, and a guest who enters the first code. -/
def oneGuest : List (HouseLabel .small) :=
  adminDoes (.createPlan "1 h" 60 500) :: performs 0 2 ++
    adminDoes (.generateTokens "counter" 1 2 inTurn) :: performs 1 3 ++
      .start (.portalAuth "CAFE-AAAA-AAAA" "02:00:00:00:00:01" "10.0.0.2") :: performs 2 5

/-- The guest is disconnected, and the other code is revoked. -/
def closing : List (HouseLabel .small) :=
  adminDoes (.disconnectSession 1) :: performs 3 4 ++ adminDoes (.revokeToken 2) :: performs 4 3

theorem ids_mean_the_same_closing : ∃ s s', (house .small).trace newHouse oneGuest = some s ∧
    (house .small).trace s closing = some s' ∧ (∃ k, s.shared.db.tables.sessionById 1 = some k ∧ k.status = .active) ∧
      (∃ k, s'.shared.db.tables.sessionById 1 = some k ∧ k.status = .disconnected) ∧
        s.shared.db.tables.Means s'.shared.db.tables :=
  ⟨_, _, rfl, rfl, ⟨_, rfl, by decide⟩, ⟨_, rfl, by decide⟩, ids_mean_the_same (Machine.path_trace (t := closing) rfl)⟩

end Didicafe
