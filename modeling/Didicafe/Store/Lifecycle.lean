/-
What the statements do to the life of a token. A statement writes at most one token; `redeem_token` and
`expire_token` move it along the life of a token only when it is unused, respectively sold, which they do
not check, and `revoke_token` always does.
-/
import Didicafe.Model.World
import Didicafe.Store.Rows

namespace Didicafe

open Table

/-! ## The life of a token -/

/-- The steps of a token's life. -/
def TokenStatus.Next (a b : TokenStatus) : Prop :=
  (a, b) = (.unused, .active) ∨ (a, b) = (.active, .expired) ∨ (a, b) = (.unused, .revoked)

instance (a b : TokenStatus) : Decidable (a.Next b) := by unfold TokenStatus.Next; infer_instance

/-- A token stays as it is or takes a step of its life, and keeps its expiry once it has one. -/
structure TokenRow.Moves (r r' : TokenRow) : Prop where
  status : r'.status = r.status ∨ r.status.Next r'.status
  expiresAt : ∀ e, r.expiresAt = some e → r'.expiresAt = some e

theorem TokenRow.Moves.refl (r : TokenRow) : r.Moves r := ⟨.inl rfl, fun _ h => h⟩

/-- The same tokens, each moved along its life. -/
structure Lawful (t t' : Tables) : Prop where
  ids : t'.token.map (·.id) = t.token.map (·.id)
  moves : ∀ r ∈ t.token, ∀ r' ∈ t'.token, r'.id = r.id → r.Moves r'

/-- The token was sold: it is active or expired. -/
def Sold (t : Tables) (id : Int) : Prop := ∀ r ∈ t.token, r.id = id → r.status = .active ∨ r.status = .expired

/-- The token is unused and has no expiry. -/
def Fresh (t : Tables) (id : Int) : Prop := ∀ r ∈ t.token, r.id = id → r.status = .unused ∧ r.expiresAt = none

/-- There is a session of the token. -/
def HasSession (t : Tables) (id : Int) : Prop := ∃ s ∈ t.session, s.tokenId = id

variable {t t' : Tables}

/-- Every token was there before. -/
theorem Lawful.source (h : Lawful t t') {r' : TokenRow} (hr : r' ∈ t'.token) :
    ∃ r ∈ t.token, r'.id = r.id ∧ r.Moves r' := by
  have : r'.id ∈ t.token.map (·.id) := h.ids ▸ List.mem_map_of_mem hr
  obtain ⟨r, hr₀, hid⟩ := List.mem_map.1 this
  exact ⟨r, hr₀, hid.symm, h.moves r hr₀ r' hr hid.symm⟩

theorem Lawful.of_eq (hs : t.Schema) (h : t'.token = t.token) : Lawful t t' :=
  ⟨by rw [h], fun r hr r' hr' hid => by
    rw [h] at hr'
    rw [eq_of_key hs.tokenId hr' hr hid]
    exact .refl r⟩

theorem Lawful.updateWhere (hs : t.Schema) {p : TokenRow → Bool} {f : TokenRow → TokenRow}
    (hid : ∀ r, (f r).id = r.id) (h : ∀ r ∈ t.token, p r = true → r.Moves (f r)) :
    Lawful t { t with token := updateWhere p f t.token } := by
  refine ⟨map_updateWhere hid _, fun r hr r' hr' he => ?_⟩
  rcases mem_updateWhere.1 hr' with ⟨a, ha, hp, rfl⟩ | ⟨hr', -⟩
  · obtain rfl := eq_of_key hs.tokenId ha hr ((hid a).symm.trans he)
    exact h a ha hp
  · rw [eq_of_key hs.tokenId hr' hr he]
    exact .refl r

theorem Sold.keep {id : Int} (h : Sold t id) (hl : Lawful t t') : Sold t' id := by
  intro r' hr' hid
  obtain ⟨r, hr, he, hm⟩ := hl.source hr'
  have hst := h r hr (he.symm.trans hid)
  rcases hm.status with h | h | h | h
  · rw [h]; exact hst
  · rw [(Prod.mk.inj h).1] at hst; rcases hst with h | h <;> cases h
  · exact .inr (Prod.mk.inj h).2
  · rw [(Prod.mk.inj h).1] at hst; rcases hst with h | h <;> cases h

/-- Each token is still there, ended if it was ended, with its expiry if it had one. -/
def Settled (t t' : Tables) : Prop := ∀ r ∈ t.token, ∃ r' ∈ t'.token, r'.id = r.id ∧
  (r.status = .expired ∨ r.status = .revoked → r'.status = r.status) ∧
  ∀ e, r.expiresAt = some e → r'.expiresAt = some e

theorem Settled.refl (t : Tables) : Settled t t := fun r hr => ⟨r, hr, rfl, fun _ => rfl, fun _ h => h⟩

theorem Settled.trans {t'' : Tables} (h : Settled t t') (h' : Settled t' t'') : Settled t t'' := by
  intro r hr
  obtain ⟨r₁, hr₁, hid₁, hst₁, he₁⟩ := h r hr
  obtain ⟨r₂, hr₂, hid₂, hst₂, he₂⟩ := h' r₁ hr₁
  refine ⟨r₂, hr₂, hid₂.trans hid₁, fun hend => ?_, fun e he => he₂ e (he₁ e he)⟩
  have hst := hst₁ hend
  exact (hst₂ (hst ▸ hend)).trans hst

theorem Lawful.settled (h : Lawful t t') : Settled t t' := by
  intro r hr
  have : r.id ∈ t'.token.map (·.id) := h.ids ▸ List.mem_map_of_mem hr
  obtain ⟨r', hr', hid⟩ := List.mem_map.1 this
  obtain ⟨hst, he⟩ := h.moves r hr r' hr' hid
  refine ⟨r', hr', hid, fun hend => hst.resolve_right ?_, he⟩
  rintro (h | h | h)
  all_goals
    rw [(Prod.mk.inj h).1] at hend
    rcases hend with hend | hend <;> cases hend

/-! ## The statements that write a token -/

section Tokens

variable (hs : t.Schema) {now id : Int} {expiresAt : String}
include hs

theorem lawful_redeemToken (h : Fresh t id) : Lawful t (t.redeemToken now id expiresAt) := by
  refine .updateWhere hs (fun _ => rfl) fun r hr hp => ?_
  obtain ⟨hst, he⟩ := h r hr (eq_of_beq hp)
  refine ⟨.inr (.inl (by rw [hst])), fun e h => ?_⟩
  rw [he] at h; cases h

theorem lawful_expireToken (h : Sold t id) : Lawful t (t.expireToken id) := by
  refine .updateWhere hs (fun _ => rfl) fun r hr hp => ⟨?_, fun _ h => h⟩
  rcases h r hr (eq_of_beq hp) with hst | hst
  · exact .inr (.inr (.inl (by rw [hst])))
  · exact .inl hst.symm

theorem lawful_revokeToken : Lawful t (t.revokeToken id) := by
  refine .updateWhere hs (fun _ => rfl) fun r _ hp => ⟨.inr (.inr (.inr ?_)), fun _ h => h⟩
  rw [eq_of_beq (Bool.and_eq_true_iff.1 hp).2]

end Tokens

theorem sold_redeemToken (now id : Int) (expiresAt : String) : Sold (t.redeemToken now id expiresAt) id := by
  intro r hr hid
  rcases mem_updateWhere.1 hr with ⟨a, -, -, rfl⟩ | ⟨-, hne⟩
  · exact .inl rfl
  · exact absurd hid (ne_of_beq_false hne)

theorem fresh_of_unused {k : Token} (hs : t.Schema) (hk : k.toTokenRow ∈ t.token) (hst : k.status = .unused)
    (hex : ∀ r ∈ t.token, r.status = .unused → r.expiresAt = none) : Fresh t k.id := by
  intro r hr hid
  have hst : r.status = .unused := by rw [eq_of_key hs.tokenId hr hk hid, hst]
  exact ⟨hst, hex r hr hst⟩

theorem sold_of_active {k : Token} (hs : t.Schema) (hk : k.toTokenRow ∈ t.token) (hst : k.status = .active) :
    Sold t k.id := by
  intro r hr hid
  rw [eq_of_key hs.tokenId hr hk hid]
  exact .inl hst

/-! ## What a statement leaves alone -/

/-- At most the token `writes` was written, which is then not unused, and a session was inserted at most for the token
`opens`. -/
structure Changes (t t' : Tables) (writes opens : Option Int) : Prop where
  token : ∀ r ∈ t'.token, writes ≠ some r.id ∨ r.status = .unused → r ∈ t.token
  opened : ∀ k, HasSession t' k → HasSession t k ∨ opens = some k
  kept : ∀ k, HasSession t k → HasSession t' k

theorem hasSession_setSessionStatus {p : SessionRow → Bool} {st : SessionStatus} {k : Int} :
    HasSession (t.setSessionStatus p st) k ↔ HasSession t k := by
  have ids : (t.setSessionStatus p st).session.map (·.tokenId) = t.session.map (·.tokenId) :=
    map_updateWhere (by intro _; rfl) _
  unfold HasSession
  simp only [← List.mem_map (f := fun s : SessionRow => s.tokenId)]
  rw [ids]

theorem hasSession_createSession {now tokenId : Int} {mac ip expiresAt : String} {k : Int} :
    HasSession t k → HasSession (t.createSession now tokenId mac ip expiresAt).2 k := by
  intro h
  unfold Tables.createSession
  split
  · obtain ⟨s, hs, hk⟩ := hasSession_setSessionStatus.2 h
    exact ⟨s, List.mem_append.2 (.inl hs), hk⟩
  · exact h

namespace Changes

theorem of_eq (htok : t'.token = t.token) (hses : ∀ k, HasSession t' k ↔ HasSession t k) (writes opens : Option Int) :
    Changes t t' writes opens :=
  ⟨fun _ hr _ => htok ▸ hr, fun k h => .inl ((hses k).1 h), fun k h => (hses k).2 h⟩

theorem setSessionStatus (p : SessionRow → Bool) (st : SessionStatus) (writes opens : Option Int) :
    Changes t (t.setSessionStatus p st) writes opens :=
  have htok : (t.setSessionStatus p st).token = t.token := rfl
  .of_eq htok (fun _ => hasSession_setSessionStatus) _ _

theorem createSession {now tokenId : Int} {mac ip expiresAt : String} (writes : Option Int) :
    Changes t (t.createSession now tokenId mac ip expiresAt).2 writes (some tokenId) := by
  refine ⟨fun r hr _ => Tables.token_createSession ▸ hr, fun k h => ?_, fun k => hasSession_createSession⟩
  unfold Tables.createSession at h
  split at h
  · obtain ⟨s, hs, hk⟩ := h
    rcases List.mem_append.1 hs with hs | hs
    · exact .inl (hasSession_setSessionStatus.1 ⟨s, hs, hk⟩)
    · rw [List.mem_singleton.1 hs] at hk
      exact .inr (congrArg some hk)
  · exact .inl h

/-- An update of one token, which is not unused after it. -/
theorem updateWhere {p : TokenRow → Bool} {f : TokenRow → TokenRow} {k : Int} (hp : ∀ r, p r = true → r.id = k)
    (hid : ∀ r, (f r).id = r.id) (hst : ∀ r, (f r).status ≠ .unused) (opens : Option Int) :
    Changes t { t with token := Table.updateWhere p f t.token } (some k) opens := by
  refine ⟨fun r hr h => ?_, fun _ h => .inl h, fun _ h => h⟩
  rcases mem_updateWhere.1 hr with ⟨a, -, hpa, rfl⟩ | ⟨hr, -⟩
  · rcases h with h | h
    · exact absurd (congrArg some ((hid a).trans (hp a hpa)).symm) h
    · exact absurd h (hst a)
  · exact hr

section Tokens

variable (t) (id : Int) (opens : Option Int)

theorem redeemToken (now : Int) (expiresAt : String) : Changes t (t.redeemToken now id expiresAt) (some id) opens :=
  updateWhere (fun _ hp => eq_of_beq hp) (by intro _; rfl) (by intro _; nofun) opens

theorem expireToken : Changes t (t.expireToken id) (some id) opens :=
  updateWhere (fun _ hp => eq_of_beq hp) (by intro _; rfl) (by intro _; nofun) opens

theorem revokeToken : Changes t (t.revokeToken id) (some id) opens :=
  updateWhere (fun _ hp => eq_of_beq (Bool.and_eq_true_iff.1 hp).1) (by intro _; rfl) (by intro _; nofun) opens

end Tokens

end Changes

end Didicafe
