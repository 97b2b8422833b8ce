/-
The sales of the days that are over, as the weekly statistics compute them from the rows: for each counted token the
price its plan has now. A statement leaves them as they are unless it edits the price of a plan with a counted token
or deletes one.
-/
import Didicafe.Model.World
import Didicafe.Store.Rows
import Mathlib.Algebra.BigOperators.Group.List.Basic
import Mathlib.Algebra.Order.Ring.Int

namespace Didicafe

open Effect Table

/-! ## Sums -/

/-- The sums of the first prices are `i64` values. -/
def RunningSums (prices : List Int) : Prop := ∀ n, FitsI64 (prices.take n).sum

theorem addI64_eq (a b : Int) :
    Tables.addI64 a b = if FitsI64 (a + b) then .ok (a + b) else .error (.sqlx "integer overflow") := by
  have hiff : (-2 ^ 63 ≤ a + b ∧ a + b < 2 ^ 63) ↔ FitsI64 (a + b) := by
    unfold FitsI64
    omega
  unfold Tables.addI64
  simp only [hiff]

theorem foldlM_addI64_iff {s : Int} : ∀ {prices : List Int} {a : Int}, FitsI64 a →
    (prices.foldlM Tables.addI64 a = .ok s ↔ (∀ n, FitsI64 (a + (prices.take n).sum)) ∧ s = a + prices.sum)
  | [], a, ha => by
    simp only [List.take_nil, List.sum_nil, Int.add_zero, ha, implies_true, true_and]
    exact ⟨fun h => by cases h; rfl, fun h => by rw [h]; rfl⟩
  | x :: prices, a, ha => by
    rw [List.foldlM_cons, addI64_eq]
    by_cases hx : FitsI64 (a + x)
    · rw [if_pos hx]
      refine (foldlM_addI64_iff hx).trans ?_
      rw [List.sum_cons, Int.add_assoc]
      refine and_congr_left fun _ => ⟨fun h n => ?_, fun h n => ?_⟩
      · cases n with
        | zero => rw [List.take_zero, List.sum_nil, Int.add_zero]; exact ha
        | succ n =>
          rw [List.take_succ_cons, List.sum_cons, ← Int.add_assoc]
          exact h n
      · have := h (n + 1)
        rw [List.take_succ_cons, List.sum_cons, ← Int.add_assoc] at this
        exact this
    · rw [if_neg hx]
      refine iff_of_false (fun h => by cases h) fun h => hx ?_
      have := h.1 1
      rwa [List.take_succ_cons, List.take_zero, List.sum_cons, List.sum_nil, Int.add_zero] at this

/-- `SUM` gives the sum of the prices, unless a running sum is not an `i64`. -/
theorem sum_ok_iff {prices : List Int} {s : Int} :
    prices.foldlM Tables.addI64 0 = .ok s ↔ RunningSums prices ∧ s = prices.sum := by
  rw [foldlM_addI64_iff (by decide)]
  simp only [Int.zero_add]
  rfl

/-! ## The statistics of a day -/

/-- The statistics count the token for the date. -/
def TokenRow.countsFor (r : TokenRow) (date : String) : Bool :=
  r.redeemedAt.bind Tables.dateOf == some date && (r.status == .active || r.status == .expired)

namespace Tables

variable {t t' : Tables} {date : String}

/-- The prices of the counted tokens, one for each. -/
def receipts (t : Tables) (date : String) : List (Option Int) :=
  (t.soldOn date).map fun r => (t.planById r.planId).map (·.priceAriary)

theorem byStatusIndex_perm (rows : List TokenRow) : (byStatusIndex rows).Perm rows := List.perm_insertionSort ..

/-- In whichever order `SUM` visits the counted tokens, their entry only depends on the receipts. -/
theorem dayStats_receipts {d : DayStats} (h : t.dayStats date = .ok d) :
    d = ⟨date, (t.receipts date).length, ((t.receipts date).filterMap id).sum⟩ := by
  have hperm : (t.pricesOn date).Perm ((t.receipts date).filterMap id) := by
    unfold pricesOn pricesOf receipts
    rw [List.filterMap_map]
    exact (byStatusIndex_perm _).filterMap _
  unfold dayStats at h
  cases hsum : (t.pricesOn date).foldlM addI64 0 with
  | error e => rw [hsum] at h; cases h
  | ok revenue =>
    rw [hsum] at h
    cases h
    obtain ⟨-, rfl⟩ := sum_ok_iff.1 hsum
    rw [hperm.sum_eq]
    unfold receipts
    rw [List.length_map]

theorem dayStats_date {d : DayStats} (h : t.dayStats date = .ok d) : d.date = date := by
  rw [dayStats_receipts h]

/-! ## The window -/

theorem mem_datesUpTo {last : Int} : ∀ {fuel : Nat} {day : Int}, date ∈ datesUpTo last fuel day →
    ∃ k, day ≤ k ∧ k < day + fuel ∧ date = formatDate k
  | fuel + 1, day, h => by
    unfold datesUpTo at h
    rcases List.mem_cons.1 h with rfl | h
    · exact ⟨day, by omega, by omega, rfl⟩
    split at h
    · obtain ⟨k, hlo, hhi, hk⟩ := mem_datesUpTo h
      exact ⟨k, by omega, by omega, hk⟩
    · cases h

/-- Each entry of the weekly statistics is that of one of the seven days up to today. -/
theorem mem_weeklyStats {now : Int} {l : List DayStats} (h : t.weeklyStats now = .ok l) {d : DayStats} (hd : d ∈ l) :
    ∃ day, today now - 6 ≤ day ∧ day ≤ today now ∧ d.date = formatDate day ∧ t.dayStats (formatDate day) = .ok d := by
  obtain ⟨date, hdate, hstats⟩ := (mem_mapM_ok h).1 d hd
  obtain ⟨day, hlo, hhi, rfl⟩ := mem_datesUpTo hdate
  exact ⟨day, hlo, by omega, dayStats_date hstats, hstats⟩

end Tables

/-- A day that is over and in the weekly statistics. -/
def Reported (now day : Int) : Prop := today now - 6 ≤ day ∧ day < today now

/-- The token is counted for a reported day. -/
def TokenRow.CountedPast (r : TokenRow) (now : Int) : Prop :=
  ∃ day, Reported now day ∧ r.countsFor (formatDate day) = true

/-- What is redeemed now is counted for today. -/
theorem not_reported_of_redeemed {r : TokenRow} {now day : Int} (hr : r.redeemedAt = some (datetimeNow now))
    (h : r.countsFor (formatDate day) = true) : day = today now := by
  have h := eq_of_beq (Bool.and_eq_true_iff.1 h).1
  rw [hr] at h
  simp only [Option.bind_some] at h
  unfold Tables.dateOf datetimeNow at h
  -- a timestamp outside of the range is not read back as a date
  by_cases hrange : InRange (now / nanosPerSec)
  · rw [parseTimestamp_formatTimestamp hrange] at h
    exact (formatDate_injective (Option.some.inj h)).symm
  · rw [parseTimestamp_formatTimestamp_none hrange] at h
    cases h

/-! ## One statement -/

/-- The receipts of the reported days are the same. -/
def SameReceipts (now : Int) (t t' : Tables) : Prop :=
  ∀ day, Reported now day → t'.receipts (formatDate day) = t.receipts (formatDate day)

/-- No token that is unused or revoked has a redemption time. -/
def Unredeemed (t : Tables) : Prop :=
  ∀ r ∈ t.token, r.status = .unused ∨ r.status = .revoked → r.redeemedAt = none

namespace Tables

variable {t : Tables} {date : String}

theorem receipts_updateWhere {p : TokenRow → Bool} {f : TokenRow → TokenRow} (hplan : ∀ r, (f r).planId = r.planId)
    (hc : ∀ r ∈ t.token, p r = true → (f r).countsFor date = r.countsFor date) :
    receipts { t with token := updateWhere p f t.token } date = t.receipts date :=
  map_filter_updateWhere (g := fun r : TokenRow => (t.planById r.planId).map fun p : Plan => p.priceAriary)
    (c := fun r : TokenRow => r.countsFor date) (fun r => by rw [hplan]) hc

/-- The receipts only depend on the plans of the counted tokens. -/
theorem receipts_congr {t' : Tables} (htok : t'.token = t.token)
    (hplan : ∀ r ∈ t.token, r.countsFor date = true →
      (t'.planById r.planId).map (·.priceAriary) = (t.planById r.planId).map (·.priceAriary)) :
    t'.receipts date = t.receipts date := by
  unfold receipts soldOn
  rw [htok]
  apply List.map_congr_left
  intro r hr
  exact hplan r (List.mem_filter.1 hr).1 (List.mem_filter.1 hr).2

theorem receipts_createPlan (hs : t.Schema) (now : Int) (name : String) (durationMinutes priceAriary : Int) :
    (t.createPlan now name durationMinutes priceAriary).receipts date = t.receipts date := by
  refine receipts_congr rfl fun r hr _ => ?_
  obtain ⟨p, hp, hpr⟩ := hs.tokenPlan r hr
  have hf : t.plan.find? (fun p => p.id == r.planId) = some p := (find_key_iff hs.planId).2 ⟨hp, hpr⟩
  unfold planById createPlan
  rw [List.find?_append, hf]; rfl

theorem planById_updatePlan {id k : Int} {name : String} {durationMinutes priceAriary : Int} {active : Bool} :
    (t.updatePlan id name durationMinutes priceAriary active).planById k = (t.planById k).map fun p =>
      if p.id == id then
        { p with name := name, durationMinutes := durationMinutes, priceAriary := priceAriary, active := active }
      else p :=
  find?_updateWhere (by intro _; rfl)

theorem planById_updatePlan_self {id : Int} {name : String} {durationMinutes priceAriary : Int} {active : Bool} :
    (t.updatePlan id name durationMinutes priceAriary active).planById id = (t.planById id).map fun p =>
      { p with name := name, durationMinutes := durationMinutes, priceAriary := priceAriary, active := active } := by
  rw [planById_updatePlan]
  cases hp : t.planById id with
  | none => rfl
  | some p => exact congrArg some (if_pos (List.find?_some hp))

theorem receipts_updatePlan {id : Int} {name : String} {durationMinutes priceAriary : Int} {active : Bool}
    (h : ∀ p ∈ t.plan, p.id = id → p.priceAriary ≠ priceAriary →
      ∀ r ∈ t.token, r.planId = id → r.countsFor date = false) :
    (t.updatePlan id name durationMinutes priceAriary active).receipts date = t.receipts date := by
  refine receipts_congr rfl fun r hr hc => ?_
  rw [planById_updatePlan]
  cases hf : t.planById r.planId with
  | none => rfl
  | some p =>
    have hpr : p.id = r.planId := by simpa using List.find?_some hf
    -- only the edited plan can have another price
    simp only [Option.map_some]
    split
    · rename_i hid
      have hid : p.id = id := eq_of_beq hid
      -- with another price, the token is not counted
      by_contra hne
      refine absurd hc (Bool.eq_false_iff.1 (h p (List.mem_of_find?_eq_some hf) hid (fun he => hne ?_) r hr ?_))
      · rw [he]
      · rw [← hpr, hid]
    · rfl

theorem receipts_createToken (now : Int) (code : String) (name : Option String) (planId : Int) :
    (t.createToken now code name planId).2.receipts date = t.receipts date := by
  unfold createToken
  split
  · rfl
  split
  · unfold receipts soldOn
    simp only [List.filter_append, List.map_append]
    exact List.append_nil _
  · rfl

theorem receipts_deleteOrphanTokens (h : ∀ r ∈ t.token, t.isOrphan r = true → r.countsFor date = false) :
    t.deleteOrphanTokens.receipts date = t.receipts date := by
  unfold receipts soldOn deleteOrphanTokens deleteWhere
  simp only
  rw [List.filter_filter]
  congr 1
  apply List.filter_congr
  intro r hr
  cases horphan : t.isOrphan r with
  | true =>
    have : r.countsFor date = false := h r hr horphan
    unfold TokenRow.countsFor at this
    rw [this]; rfl
  | false => rw [Bool.not_false, Bool.and_true]

end Tables

/-- An operation that leaves the sales of the reported days alone: it redeems only an unused token, edits the price of
no plan with a counted token, and deletes no counted token. -/
def Op.LeavesSales (w : World) : Op → Prop
  | .sql (.redeemToken id _) => ∀ r ∈ w.db.tables.token, r.id = id → r.status = .unused
  | .sql (.updatePlan id _ _ price _) => ∀ p ∈ w.db.tables.plan, p.id = id → p.priceAriary ≠ price →
    ∀ r ∈ w.db.tables.token, r.planId = id → ¬ r.CountedPast w.now
  | .sql .deleteOrphanTokens => ∀ r ∈ w.db.tables.token, w.db.tables.isOrphan r = true → ¬ r.CountedPast w.now
  | _ => True

theorem Reported.not_counted {r : TokenRow} {now day : Int} (hday : Reported now day) (h : ¬ r.CountedPast now) :
    r.countsFor (formatDate day) = false :=
  Bool.eq_false_iff.2 fun hc => h ⟨day, hday, hc⟩

theorem TokenRow.countsFor_of_status {r : TokenRow} {date : String} (h : r.status = .unused ∨ r.status = .revoked) :
    r.countsFor date = false := by
  unfold countsFor
  rcases h with h | h
  all_goals
    rw [h]
    exact Bool.and_false _

theorem TokenRow.countsFor_of_sold {r : TokenRow} {date : String} (h : r.status = .active ∨ r.status = .expired) :
    r.countsFor date = (r.redeemedAt.bind Tables.dateOf == some date) := by
  unfold countsFor
  rcases h with h | h
  all_goals
    rw [h]
    exact Bool.and_true _

theorem TokenRow.countsFor_of_redeemedAt {r : TokenRow} {date : String} (h : r.redeemedAt = none) :
    r.countsFor date = false := by
  unfold countsFor
  rw [h]; rfl

section Statements

variable {t : Tables} {now : Int}

theorem SameReceipts.of_eq {t' : Tables} (htok : t'.token = t.token) (hplan : t'.plan = t.plan) :
    SameReceipts now t t' := fun _ _ =>
  Tables.receipts_congr htok fun _ _ _ => by unfold Tables.planById; rw [hplan]

theorem sameReceipts_redeemToken {id : Int} {expiresAt : String}
    (h : ∀ r ∈ t.token, r.id = id → r.status = .unused) : SameReceipts now t (t.redeemToken now id expiresAt) := by
  intro day hday
  refine Tables.receipts_updateWhere (fun _ => rfl) fun r hr hid => ?_
  -- not counted before, and counted for today after
  rw [TokenRow.countsFor_of_status (.inl (h r hr (eq_of_beq hid)))]
  refine Bool.eq_false_iff.2 fun hc => ?_
  have := not_reported_of_redeemed rfl hc
  exact absurd hday.2 (by omega)

theorem sameReceipts_expireToken (hu : Unredeemed t) (id : Int) : SameReceipts now t (t.expireToken id) := by
  intro day _
  refine Tables.receipts_updateWhere (fun _ => rfl) fun r hr _ => ?_
  cases hst : r.status with
  -- the statement does not ask for the status, but these have no date to be counted for
  | unused | revoked =>
    have hnone : r.redeemedAt = none := hu r hr (by rw [hst]; simp)
    exact (TokenRow.countsFor_of_redeemedAt (by exact hnone)).trans (TokenRow.countsFor_of_redeemedAt hnone).symm
  | active | expired =>
    exact (TokenRow.countsFor_of_sold (.inr rfl)).trans (TokenRow.countsFor_of_sold (by rw [hst]; simp)).symm

theorem sameReceipts_revokeToken (id : Int) : SameReceipts now t (t.revokeToken id) := by
  intro day _
  refine Tables.receipts_updateWhere (fun _ => rfl) fun r _ hp => ?_
  rw [TokenRow.countsFor_of_status (.inl (eq_of_beq (Bool.and_eq_true_iff.1 hp).2)),
    TokenRow.countsFor_of_status (.inr rfl)]

theorem sameReceipts_createSession (tokenId : Int) (mac ip expiresAt : String) :
    SameReceipts now t (t.createSession now tokenId mac ip expiresAt).2 := by
  refine .of_eq Tables.token_createSession ?_
  unfold Tables.createSession
  split <;> rfl

/-- What an operation does to the sales of the reported days. -/
theorem Op.LeavesSales.sameReceipts {op : Op} {w : World} (h : op.LeavesSales w) (hu : Unredeemed w.db.tables) :
    SameReceipts w.now w.db.tables (World.exec none op w).2.db.tables := by
  have same : SameReceipts w.now w.db.tables w.db.tables := fun _ _ => rfl
  rcases op with _ | cmd | q
  · exact same
  · exact same
  · cases q with
    | createPlan => exact fun _ _ => Tables.receipts_createPlan w.db.schema ..
    | updatePlan =>
      exact fun _ hday => Tables.receipts_updatePlan fun p hp hid hne r hr hrp =>
        hday.not_counted (h p hp hid hne r hr hrp)
    | createToken => exact fun _ _ => Tables.receipts_createToken ..
    | redeemToken => exact sameReceipts_redeemToken h
    | expireToken => exact sameReceipts_expireToken hu _
    | revokeToken => exact sameReceipts_revokeToken _
    | createSession tokenId mac ip expiresAt => exact sameReceipts_createSession tokenId mac ip expiresAt
    | deleteOrphanTokens =>
      exact fun _ hday => Tables.receipts_deleteOrphanTokens fun r hr ho => hday.not_counted (h r hr ho)
    | _ => exact .of_eq rfl rfl

/-- Every statement keeps the redemption times of unused and revoked tokens empty. -/
theorem Sql.unredeemed (h : Unredeemed t) (now : Int) (q : Sql) : Unredeemed (q.run now t).2 := by
  have write {p : TokenRow → Bool} {f : TokenRow → TokenRow}
      (hf : ∀ r ∈ t.token, p r = true → (f r).status = .unused ∨ (f r).status = .revoked → (f r).redeemedAt = none) :
      Unredeemed { t with token := updateWhere p f t.token } := forall_updateWhere h hf
  cases q with
  | redeemToken | expireToken => exact write fun _ _ _ hst => by rcases hst with hst | hst <;> cases hst
  | revokeToken => exact write fun r hr hp _ => h r hr (.inl (eq_of_beq (Bool.and_eq_true_iff.1 hp).2))
  | createToken code name planId =>
    simp only [Sql.run, Tables.createToken]
    split
    · exact h
    split
    · intro r hr hst
      rcases List.mem_append.1 hr with hr | hr
      · exact h r hr hst
      · rw [List.mem_singleton.1 hr]
    · exact h
  | createSession =>
    simp only [Sql.run]
    unfold Unredeemed
    rw [Tables.token_createSession]
    exact h
  | deleteOrphanTokens => exact fun r hr => h r (mem_deleteWhere.1 hr).1
  | _ => exact h

end Statements

end Didicafe
