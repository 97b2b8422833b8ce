/-
The daily and the weekly statistics. The one compares the redemption time with today's date as texts, the other takes
the date of the redemption time and counts up the dates of a week as long as their text is less than today's; both are
about calendar days, since dates of four-digit years are ordered like their texts. The sums of the prices are `i64`
values, added in the order of an index on the status, and the statistics fail when one of them is not.
-/
import Didicafe.Store.Ledger
import Didicafe.Model.Admin
import Didicafe.Session.Calls
import Mathlib.Algebra.Order.BigOperators.Group.List
import Mathlib.Algebra.Order.Ring.Int

namespace Didicafe

open Effect Table

/-! ## Sums -/

/-- Without negative prices the last sum is the greatest. -/
theorem runningSums_iff {prices : List Int} (h : ∀ x ∈ prices, 0 ≤ x) :
    RunningSums prices ↔ prices.sum ≤ 9223372036854775807 := by
  constructor
  · intro hrun
    have hall := hrun prices.length
    rw [List.take_length] at hall
    exact hall.2
  · intro hsum n
    have hsplit : (prices.take n).sum + (prices.drop n).sum = prices.sum := by
      rw [← List.sum_append, List.take_append_drop]
    have htake : 0 ≤ (prices.take n).sum := List.sum_nonneg fun x hx => h x (List.mem_of_mem_take hx)
    have hdrop : 0 ≤ (prices.drop n).sum := List.sum_nonneg fun x hx => h x (List.mem_of_mem_drop hx)
    unfold FitsI64
    omega

/-! ## The days of the sales -/

/-- The day on which the token was sold, if it counts as sold. -/
def TokenRow.soldDay (r : TokenRow) : Option Int :=
  if r.status = .active ∨ r.status = .expired then (r.redeemedAt.bind parseTimestamp).map (· / 86400) else none

namespace Tables

variable {t : Tables}

/-- The tokens sold on a day. -/
def sales (t : Tables) (day : Int) : List TokenRow := t.token.filter fun r => r.soldDay == some day

/-- The price of a token's plan. -/
def price (t : Tables) (r : TokenRow) : Int := ((t.planById r.planId).map (·.priceAriary)).getD 0

theorem mem_sales {day : Int} {r : TokenRow} : r ∈ t.sales day ↔ r ∈ t.token ∧ r.soldDay = some day := by
  unfold sales
  rw [List.mem_filter, beq_iff_eq]

theorem countsFor_formatDate (r : TokenRow) (day : Int) :
    r.countsFor (formatDate day) = (r.soldDay == some day) := by
  have hdate : ∀ o : Option String, (o.bind dateOf == some (formatDate day)) =
      ((o.bind parseTimestamp).map (· / 86400) == some day) := by
    rintro (_ | text)
    · rfl
    · unfold dateOf
      rw [Option.bind_some, Option.bind_some]
      cases parseTimestamp text with
      | none => rfl
      | some sec =>
        rw [Option.map_some, Option.map_some, Bool.eq_iff_iff, beq_iff_eq, beq_iff_eq, Option.some_inj, Option.some_inj]
        exact ⟨formatDate_injective, congrArg formatDate⟩
  unfold TokenRow.soldDay
  cases hst : r.status with
  | active | expired =>
    rw [TokenRow.countsFor_of_sold (by rw [hst]; simp), if_pos (by simp), hdate]
  | unused | revoked =>
    rw [TokenRow.countsFor_of_status (by rw [hst]; simp), if_neg (by simp)]
    rfl

theorem soldOn_formatDate (day : Int) : t.soldOn (formatDate day) = t.sales day :=
  List.filter_congr fun r _ => countsFor_formatDate r day

/-- Every token has its plan, so no price is missing. -/
theorem filterMap_price (hs : t.Schema) {rows : List TokenRow} (hrows : ∀ r ∈ rows, r ∈ t.token) :
    rows.filterMap (fun r => (t.planById r.planId).map (·.priceAriary)) = rows.map t.price := by
  rw [← List.filterMap_eq_map]
  apply List.filterMap_congr
  intro r hr
  obtain ⟨p, hp, hpr⟩ := hs.tokenPlan r (hrows r hr)
  have hf : t.planById r.planId = some p := (find_key_iff hs.planId).2 ⟨hp, hpr⟩
  simp only [Function.comp_apply, price, hf, Option.map_some, Option.getD_some]

theorem pricesOf_eq (hs : t.Schema) {rows : List TokenRow} (hrows : ∀ r ∈ rows, r ∈ t.token) :
    t.pricesOf rows = (byStatusIndex rows).map t.price :=
  filterMap_price hs fun r hr => hrows r ((byStatusIndex_perm rows).mem_iff.1 hr)

/-- The order of the index does not matter for the sum, but for the running sums. -/
theorem sum_byStatusIndex (rows : List TokenRow) : ((byStatusIndex rows).map t.price).sum = (rows.map t.price).sum :=
  ((byStatusIndex_perm rows).map t.price).sum_eq

theorem sum_prices_ok_iff (hs : t.Schema) {rows : List TokenRow} (hrows : ∀ r ∈ rows, r ∈ t.token) {s : Int} :
    (t.pricesOf rows).foldlM addI64 0 = .ok s ↔
      RunningSums ((byStatusIndex rows).map t.price) ∧ s = (rows.map t.price).sum := by
  rw [pricesOf_eq hs hrows, sum_ok_iff, sum_byStatusIndex]

theorem dayStats_ok_iff (hs : t.Schema) {date : String} {d : DayStats} : t.dayStats date = .ok d ↔
    RunningSums ((byStatusIndex (t.soldOn date)).map t.price) ∧
      d = ⟨date, (t.soldOn date).length, ((t.soldOn date).map t.price).sum⟩ := by
  have hsums {s : Int} : (t.pricesOf (t.soldOn date)).foldlM addI64 0 = .ok s ↔
      RunningSums ((byStatusIndex (t.soldOn date)).map t.price) ∧ s = ((t.soldOn date).map t.price).sum :=
    sum_prices_ok_iff hs fun r hr => List.mem_of_mem_filter hr
  unfold dayStats pricesOn
  constructor
  · intro h
    cases hsum : (t.pricesOf (t.soldOn date)).foldlM addI64 0 with
    | error e => rw [hsum] at h; cases h
    | ok s =>
      rw [hsum] at h
      cases h
      obtain ⟨hrun, rfl⟩ := hsums.1 hsum
      exact ⟨hrun, rfl⟩
  · rintro ⟨hrun, rfl⟩
    rw [hsums.2 ⟨hrun, rfl⟩]
    rfl

theorem revenueToday_ok_iff (hs : t.Schema) {now revenue : Int} : t.revenueToday now = .ok revenue ↔
    RunningSums ((byStatusIndex (t.soldToday now)).map t.price) ∧ revenue = ((t.soldToday now).map t.price).sum :=
  sum_prices_ok_iff hs fun _ hr => List.mem_of_mem_filter hr

/-! ## The dates of the week -/

/-- The dates count up to the last one, and end there however many rounds there may be. -/
theorem datesUpTo_eq {last : Int} (hlast : FourDigitDay last) : ∀ {n fuel : Nat}, n < fuel → FourDigitDay (last - n) →
    datesUpTo last fuel (last - n) = (List.range (n + 1)).map fun i : Nat => formatDate (last - n + i)
  | 0, fuel + 1, _, _ => by
    have hnot : ¬ formatDate (last - (0 : Nat)) < formatDate last := by
      rw [Int.natCast_zero, Int.sub_zero]
      exact String.lt_irrefl _
    unfold datesUpTo
    rw [if_neg hnot]
    simp
  | n + 1, fuel + 1, hn, hday => by
    have hnext : last - ((n + 1 : Nat) : Int) + 1 = last - n := by omega
    have hlt : formatDate (last - (n + 1 : Nat)) < formatDate last := by
      rw [formatDate_lt hday hlast]
      omega
    have hday' : FourDigitDay (last - n) := hday.mono hlast (by omega) (by omega)
    unfold datesUpTo
    rw [if_pos hlt, hnext, datesUpTo_eq hlast (by omega) hday', List.range_succ_eq_map (n := n + 1), List.map_cons,
      List.map_map]
    congr 1
    · rw [Int.natCast_zero, Int.add_zero]
    · apply List.map_congr_left
      intro i _
      simp only [Function.comp_apply]
      congr 1
      omega

end Tables

/-- The statistics of today fail when their sum does. -/
theorem exec_getDailyStats (w : World) : Fallible.exec noFault getDailyStats w =
    ((w.db.tables.revenueToday w.now).map fun revenue =>
      { tokensSold := (w.db.tables.soldToday w.now).length
        activeSessions := w.db.tables.countLiveSessions w.now
        revenueAriary := revenue }, w) := by
  unfold getDailyStats
  rw [Fallible.exec_bind_ok _ (exec_query w rfl rfl), Fallible.exec_bind_ok _ (exec_query w rfl rfl)]
  cases hsum : w.db.tables.revenueToday w.now with
  | error e => rw [Fallible.exec_bind_error _ (exec_query w rfl (by rw [Sql.run, hsum]))]; rfl
  | ok revenue =>
    rw [Fallible.exec_bind_ok _ (exec_query w rfl (by rw [Sql.run, hsum])), Fallible.exec_pure]
    rfl

theorem exec_getWeeklyStats (w : World) :
    Fallible.exec noFault (sql .getWeeklyStats) w = (w.db.tables.weeklyStats w.now, w) :=
  exec_query w rfl rfl

/-! ## Both statistics -/

/-- The redemption times are timestamps that are not after the clock, and the week up to today lies in the years of
four digits, which are those that SQLite's date functions have. -/
structure WellDated (w : World) : Prop where
  redeemed : ∀ r ∈ w.db.tables.token, ∀ text ∈ r.redeemedAt,
    ∃ sec, text = formatTimestamp sec ∧ FourDigits sec ∧ sec ≤ w.now / nanosPerSec
  first : FourDigitDay (today w.now - 6)
  last : FourDigitDay (today w.now)

namespace WellDated

variable {w : World} {r : TokenRow}

/-- No sale is on a later day than today. -/
theorem soldDay_le (hw : WellDated w) (hr : r ∈ w.db.tables.token) {day : Int} (h : r.soldDay = some day) :
    day ≤ today w.now := by
  unfold TokenRow.soldDay at h
  split at h
  · obtain ⟨sec, hsec, rfl⟩ := Option.map_eq_some_iff.1 h
    obtain ⟨text, htext, hparse⟩ := Option.bind_eq_some_iff.1 hsec
    obtain ⟨sec', rfl, h4, hle⟩ := hw.redeemed r hr text htext
    rw [parseTimestamp_formatTimestamp h4.inRange] at hparse
    cases hparse
    unfold today
    omega
  · cases h

/-- The comparison of the texts selects the sales of today. -/
theorem soldToday_eq (hw : WellDated w) : w.db.tables.soldToday w.now = w.db.tables.sales (today w.now) := by
  unfold Tables.soldToday Tables.sales
  apply List.filter_congr
  intro r hr
  have hstatus : (r.status == .active || r.status == .expired) = decide (r.status = .active ∨ r.status = .expired) := by
    cases r.status <;> rfl
  rw [hstatus]
  unfold TokenRow.soldDay
  cases htext : r.redeemedAt with
  | none =>
    rw [Option.any_none, Bool.false_and, Option.bind_none]
    split <;> rfl
  | some text =>
    obtain ⟨sec, rfl, h4, hle⟩ := hw.redeemed r hr text htext
    rw [Option.any_some, Option.bind_some, parseTimestamp_formatTimestamp h4.inRange,
      decide_eq_decide.2 (formatDate_le_formatTimestamp hw.last h4)]
    split
    · rename_i hsold
      rw [decide_eq_true hsold, Bool.and_true, Option.map_some, Bool.eq_iff_iff, beq_iff_eq, decide_eq_true_iff,
        Option.some_inj]
      unfold today
      omega
    · rename_i hsold
      rw [decide_eq_false hsold, Bool.and_false]
      rfl

end WellDated

/-- The entry counts the token. -/
def Tables.CountedIn (t : Tables) (r : TokenRow) (d : DayStats) : Prop :=
  ∃ day, d.date = formatDate day ∧ r ∈ t.sales day

/-- The weekly statistics are those of the seven days up to today, in this order, with each sale of these days in one
of them, and the last of them says the same as the daily statistics. The recursion over the dates ends by itself. -/
structure StatsAgree (w : World) (weekly : List DayStats) (daily : DailyStats) : Prop where
  dates : weekly.map (·.date) = (List.range 7).map fun i : Nat => formatDate (today w.now - 6 + i)
  ends : ∀ fuel, 7 ≤ fuel → Tables.datesUpTo (today w.now) fuel (today w.now - 6) = weekly.map (·.date)
  ascending : weekly.Pairwise fun d e => d.date < e.date
  entry : ∀ d ∈ weekly, ∃ day, d.date = formatDate day ∧ d.tokensSold = (w.db.tables.sales day).length ∧
    d.revenueAriary = ((w.db.tables.sales day).map w.db.tables.price).sum
  once : ∀ r ∈ w.db.tables.token, ∀ day, r.soldDay = some day → today w.now - 6 ≤ day →
    ∃ d ∈ weekly, d.date = formatDate day ∧ w.db.tables.CountedIn r d ∧
      ∀ e ∈ weekly, w.db.tables.CountedIn r e → e = d
  last : ∃ d ∈ weekly.getLast?, d.date = formatDate (today w.now) ∧ d.tokensSold = daily.tokensSold ∧
    d.revenueAriary = daily.revenueAriary

namespace World

/-- The entry of a day. -/
def dayEntry (w : World) (day : Int) : DayStats :=
  ⟨formatDate day, (w.db.tables.sales day).length, ((w.db.tables.sales day).map w.db.tables.price).sum⟩

/-- The entries of the week up to today. -/
def weekEntries (w : World) : List DayStats := (List.range 7).map fun i : Nat => w.dayEntry (today w.now - 6 + i)

/-- The running sums of the prices on each day of the week, in the order of the index, are `i64` values. -/
def WeekSums (w : World) : Prop :=
  ∀ i : Nat, i < 7 →
    RunningSums ((Tables.byStatusIndex (w.db.tables.sales (today w.now - 6 + i))).map w.db.tables.price)

variable {w : World}

theorem datesUpTo_week (hw : WellDated w) {fuel : Nat} (hf : 7 ≤ fuel) :
    Tables.datesUpTo (today w.now) fuel (today w.now - 6) =
      (List.range 7).map fun i : Nat => formatDate (today w.now - 6 + i) :=
  Tables.datesUpTo_eq hw.last (n := 6) (by omega) hw.first

theorem weeklyStats_ok_iff (hw : WellDated w) {weekly : List DayStats} :
    w.db.tables.weeklyStats w.now = .ok weekly ↔ w.WeekSums ∧ weekly = w.weekEntries := by
  have hweek : w.db.tables.weeklyStats w.now =
      (List.range 7).mapM fun i : Nat => w.db.tables.dayStats (formatDate (today w.now - 6 + i)) := by
    unfold Tables.weeklyStats
    rw [datesUpTo_week hw le_rfl, List.mapM_map]
    rfl
  have hday : ∀ i : Nat, ∀ {d}, w.db.tables.dayStats (formatDate (today w.now - 6 + i)) = .ok d ↔
      RunningSums ((Tables.byStatusIndex (w.db.tables.sales (today w.now - 6 + i))).map w.db.tables.price) ∧
        d = w.dayEntry (today w.now - 6 + i) := by
    intro i d
    rw [Tables.dayStats_ok_iff w.db.schema, Tables.soldOn_formatDate]
    rfl
  rw [hweek]
  constructor
  · intro h
    have hsums : w.WeekSums := by
      intro i hi
      obtain ⟨d, -, hd⟩ := (mem_mapM_ok h).2 i (List.mem_range.2 hi)
      exact ((hday i).1 hd).1
    refine ⟨hsums, ?_⟩
    have hok := mapM_ok fun i (hi : i ∈ List.range 7) => (hday i).2 ⟨hsums i (List.mem_range.1 hi), rfl⟩
    rw [h] at hok
    exact Except.ok.inj hok
  · rintro ⟨hsums, rfl⟩
    exact mapM_ok fun i hi => (hday i).2 ⟨hsums i (List.mem_range.1 hi), rfl⟩

theorem mem_weekEntries {d : DayStats} :
    d ∈ w.weekEntries ↔ ∃ day, today w.now - 6 ≤ day ∧ day ≤ today w.now ∧ d = w.dayEntry day := by
  unfold weekEntries
  rw [List.mem_map]
  constructor
  · rintro ⟨i, hi, rfl⟩
    have := List.mem_range.1 hi
    exact ⟨_, by omega, by omega, rfl⟩
  · rintro ⟨day, hlo, hhi, rfl⟩
    refine ⟨(day - (today w.now - 6)).toNat, List.mem_range.2 (by omega), ?_⟩
    congr 1
    omega

/-- An entry of the week counts the sales of its day. -/
theorem countedIn_dayEntry {r : TokenRow} {day : Int} :
    w.db.tables.CountedIn r (w.dayEntry day) ↔ r ∈ w.db.tables.sales day := by
  constructor
  · rintro ⟨day', hdate, hr⟩
    rw [formatDate_injective (m := day) hdate]
    exact hr
  · exact fun hr => ⟨day, rfl, hr⟩

theorem pairwise_weekEntries (hw : WellDated w) : w.weekEntries.Pairwise fun d e => d.date < e.date := by
  unfold weekEntries
  refine List.pairwise_map.2 (List.pairwise_lt_range.imp_of_mem fun {i j} hi hj hij => ?_)
  have hi := List.mem_range.1 hi
  have hj := List.mem_range.1 hj
  exact (formatDate_lt (hw.first.mono hw.last (by omega) (by omega)) (hw.first.mono hw.last (by omega) (by omega))).2
    (by omega)

theorem statsAgree_weekEntries (hw : WellDated w) {daily : DailyStats}
    (hsold : daily.tokensSold = (w.db.tables.sales (today w.now)).length)
    (hrevenue : daily.revenueAriary = ((w.db.tables.sales (today w.now)).map w.db.tables.price).sum) :
    StatsAgree w w.weekEntries daily := by
  have hdates : w.weekEntries.map (·.date) = (List.range 7).map fun i : Nat => formatDate (today w.now - 6 + i) := by
    unfold weekEntries
    rw [List.map_map]
    rfl
  have hlast : w.weekEntries.getLast? = some (w.dayEntry (today w.now)) := by
    have : today w.now - 6 + ((6 : Nat) : Int) = today w.now := by omega
    rw [← this]
    rfl
  refine ⟨hdates, ?_, pairwise_weekEntries hw, ?_, ?_, ⟨_, hlast, rfl, hsold.symm, hrevenue.symm⟩⟩
  case refine_1 =>
    intro fuel hf
    rw [hdates, datesUpTo_week hw hf]
  case refine_2 =>
    intro d hd
    obtain ⟨day, -, -, rfl⟩ := mem_weekEntries.1 hd
    exact ⟨day, rfl, rfl, rfl⟩
  case refine_3 =>
    intro r hr day hday hlo
    refine ⟨w.dayEntry day, mem_weekEntries.2 ⟨day, hlo, hw.soldDay_le hr hday, rfl⟩, rfl,
      countedIn_dayEntry.2 (Tables.mem_sales.2 ⟨hr, hday⟩), fun e he hcount => ?_⟩
    obtain ⟨day', -, -, rfl⟩ := mem_weekEntries.1 he
    have hday' := (Tables.mem_sales.1 (countedIn_dayEntry.1 hcount)).2
    rw [hday] at hday'
    rw [Option.some.inj hday']

end World

/-- Both statistics are there and agree exactly when the running sums of the prices of each of their days, in the order
in which SQLite visits them, are `i64` values. -/
theorem statsAgree_iff {w : World} (hw : WellDated w) :
    (∃ weekly daily, Fallible.exec noFault (sql .getWeeklyStats) w = (.ok weekly, w) ∧
      Fallible.exec noFault getDailyStats w = (.ok daily, w) ∧ StatsAgree w weekly daily) ↔ w.WeekSums := by
  rw [exec_getWeeklyStats, exec_getDailyStats]
  constructor
  · rintro ⟨weekly, daily, hweekly, -⟩
    exact ((World.weeklyStats_ok_iff hw).1 (Prod.mk.inj hweekly).1).1
  · intro hsums
    have hlast := hsums 6 (by omega)
    rw [show today w.now - 6 + ((6 : Nat) : Int) = today w.now by omega, ← hw.soldToday_eq] at hlast
    rw [(World.weeklyStats_ok_iff hw).2 ⟨hsums, rfl⟩, (Tables.revenueToday_ok_iff w.db.schema).2 ⟨hlast, rfl⟩]
    exact ⟨_, _, rfl, rfl, World.statsAgree_weekEntries hw (by rw [hw.soldToday_eq]) (by rw [hw.soldToday_eq])⟩

/-! ## Two days -/

/-- The shop of which each plan is sold at the highest price there is, on the day of two sales. -/
def World.overpriced : World :=
  let db := (World.opening.db.exec World.opening.now (.updatePlan 1 "1 h" 60 9223372036854775807 true)).2
  let db := (db.exec World.opening.now (.redeemToken 1 "2024-01-01 09:00:00")).2
  { World.opening with db := (db.exec World.opening.now (.redeemToken 2 "2024-01-01 09:00:00")).2 }

theorem wellDated_opening_day {w : World} (hnow : w.now = World.opening.now)
    (h : ∀ r ∈ w.db.tables.token, r.redeemedAt = none ∨ r.redeemedAt = some (formatTimestamp 1704096000)) :
    WellDated w := by
  refine ⟨fun r hr text htext => ?_, by rw [hnow]; decide, by rw [hnow]; decide⟩
  refine ⟨1704096000, ?_, by decide, by rw [hnow]; decide⟩
  rcases h r hr with hnone | hsome
  · rw [hnone] at htext
    cases htext
  · rw [hsome] at htext
    cases htext
    rfl

theorem statsAgree_firstSale : ∃ weekly daily,
    Fallible.exec noFault (sql .getWeeklyStats) .firstSale = (.ok weekly, .firstSale) ∧
      Fallible.exec noFault getDailyStats .firstSale = (.ok daily, .firstSale) ∧
        StatsAgree .firstSale weekly daily := by
  have hw : WellDated .firstSale := wellDated_opening_day rfl (by decide +kernel)
  have hpos : ∀ i : Nat, i < 7 → ∀ x ∈ (Tables.byStatusIndex (World.firstSale.db.tables.sales
    (today World.firstSale.now - 6 + i))).map World.firstSale.db.tables.price, 0 ≤ x := by decide +kernel
  have hsum : ∀ i : Nat, i < 7 → ((Tables.byStatusIndex (World.firstSale.db.tables.sales
    (today World.firstSale.now - 6 + i))).map World.firstSale.db.tables.price).sum ≤ 9223372036854775807 := by
    decide +kernel
  exact (statsAgree_iff hw).2 fun i hi => (runningSums_iff (hpos i hi)).2 (hsum i hi)

/-- The sum of the two prices is too large, and there are no statistics of any day. -/
theorem stats_overpriced : WellDated .overpriced ∧
    (Fallible.exec noFault (sql .getWeeklyStats) .overpriced).1 = .error (.sqlx "integer overflow") ∧
      (Fallible.exec noFault getDailyStats .overpriced).1 = .error (.sqlx "integer overflow") ∧
        ¬ ∃ weekly daily, Fallible.exec noFault (sql .getWeeklyStats) .overpriced = (.ok weekly, .overpriced) ∧
          Fallible.exec noFault getDailyStats .overpriced = (.ok daily, .overpriced) ∧
            StatsAgree .overpriced weekly daily := by
  have hweekly : (Fallible.exec noFault (sql .getWeeklyStats) .overpriced).1 = .error (.sqlx "integer overflow") := by
    decide +kernel
  refine ⟨wellDated_opening_day rfl (by decide +kernel), hweekly, by decide +kernel, ?_⟩
  rintro ⟨weekly, daily, h, -⟩
  rw [h] at hweekly
  cases hweekly

end Didicafe
