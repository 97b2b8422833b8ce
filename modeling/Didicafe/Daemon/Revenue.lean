/-
The revenue in the statistics of a daemon that started with a new database. No plan has a negative price, so a sum
that fits has running sums that fit; but nothing bounds a price or a day's sales from above, and with a sum that does
not fit the statistics and the health check fail.
-/
import Didicafe.Daemon.House
import Didicafe.Store.Statistics

namespace Didicafe

open Effect Runs

/-- The statistics are there with the sums of the prices as revenue, and the health check succeeds. -/
structure StatsExact (w : World) : Prop where
  daily : ∃ stats, Fallible.exec noFault getDailyStats w = (.ok stats, w) ∧
    stats.revenueAriary = ((w.db.tables.soldToday w.now).map w.db.tables.price).sum
  weekly : ∃ l, Fallible.exec noFault (sql .getWeeklyStats) w = (.ok l, w) ∧
    ∀ d ∈ l, d.revenueAriary = ((w.db.tables.soldOn d.date).map w.db.tables.price).sum
  health : healthCheck.run noFault w = (200, w)

/-- The prices of the tokens sold today, and of those sold on each date of the week, add up to an `i64`. -/
structure SumsFit (w : World) : Prop where
  day : ((w.db.tables.soldToday w.now).map w.db.tables.price).sum ≤ 9223372036854775807
  week : ∀ date ∈ Tables.datesUpTo (today w.now) 7 (today w.now - 6),
    ((w.db.tables.soldOn date).map w.db.tables.price).sum ≤ 9223372036854775807

theorem price_nonneg {t : Tables} (h : PlansSound t) (r : TokenRow) : 0 ≤ t.price r := by
  unfold Tables.price
  cases hp : t.planById r.planId with
  | none => exact Int.le_refl 0
  | some p => exact (h p (List.mem_of_find?_eq_some hp)).price

/-- Without negative prices it does not matter in which order they are added. -/
theorem runningSums_prices {t : Tables} (h : PlansSound t) (rows : List TokenRow) :
    RunningSums ((Tables.byStatusIndex rows).map t.price) ↔ (rows.map t.price).sum ≤ 9223372036854775807 := by
  rw [← Tables.sum_byStatusIndex]
  apply runningSums_iff
  intro x hx
  obtain ⟨r, -, rfl⟩ := List.mem_map.1 hx
  exact price_nonneg h r

theorem run_healthCheck (w : World) : healthCheck.run noFault w =
    (if (Fallible.exec noFault getDailyStats w).1.isOk then 200 else 503,
      (Fallible.exec noFault getDailyStats w).2) := by
  unfold healthCheck
  have hstats : getDailyStats.run.run noFault w = Fallible.exec noFault getDailyStats w := rfl
  rw [Prog.run_bind, hstats]
  cases (Fallible.exec noFault getDailyStats w).1 <;> rfl

theorem statsExact_iff {w : World} (h : PlansSound w.db.tables) : StatsExact w ↔ SumsFit w := by
  have hs := w.db.schema
  constructor
  · intro hx
    constructor
    · obtain ⟨stats, hdaily, -⟩ := hx.daily
      rw [exec_getDailyStats] at hdaily
      cases hsum : w.db.tables.revenueToday w.now with
      | error e => rw [hsum] at hdaily; cases hdaily
      | ok revenue => exact (runningSums_prices h _).1 ((Tables.revenueToday_ok_iff hs).1 hsum).1
    · intro date hdate
      obtain ⟨l, hweekly, -⟩ := hx.weekly
      rw [exec_getWeeklyStats] at hweekly
      obtain ⟨d, -, hd⟩ := (Table.mem_mapM_ok (Prod.mk.inj hweekly).1).2 date hdate
      exact (runningSums_prices h _).1 ((Tables.dayStats_ok_iff hs).1 hd).1
  · intro hfit
    have hrevenue := (Tables.revenueToday_ok_iff hs).2 ⟨(runningSums_prices h _).2 hfit.day, rfl⟩
    have hdaily := exec_getDailyStats w
    rw [hrevenue] at hdaily
    refine ⟨⟨_, hdaily, rfl⟩, ?_, by rw [run_healthCheck, hdaily]; rfl⟩
    have hweek : w.db.tables.weeklyStats w.now = .ok _ := Table.mapM_ok fun date hdate =>
      (Tables.dayStats_ok_iff hs).2 ⟨(runningSums_prices h _).2 (hfit.week date hdate), rfl⟩
    refine ⟨_, (exec_getWeeklyStats w).trans (by rw [hweek]), fun d hd => ?_⟩
    obtain ⟨date, -, rfl⟩ := List.mem_map.1 hd
    rfl

/-- In every state of every run from a new database the statistics are exact exactly when their sums fit. -/
theorem statsExact_of_reach {c : CafeConfig} {s : House c} (h : Reach (house c) Free s) :
    StatsExact s.shared ↔ SumsFit s.shared :=
  statsExact_iff (houseSound_of_reach h).plans

/-! ## Two sales -/

/-- A plan is created with the given price, two of its tokens are generated and both are redeemed. -/
def twoSalesAt (priceAriary : Int) : List (HouseLabel .small) :=
  adminDoes (.createPlan "1 h" 60 priceAriary) :: performs 0 2 ++
    adminDoes (.generateTokens "counter" 1 2 inTurn) :: performs 1 3 ++
      .start (.portalAuth "CAFE-AAAA-AAAA" "02:00:00:00:00:01" "10.0.0.2") :: performs 2 5 ++
        .start (.portalAuth "CAFE-BBBB-BBBB" "02:00:00:00:00:02" "10.0.0.3") :: performs 3 5

theorem statsExact_twoSales : ∃ s, (house .small).trace newHouse (twoSalesAt 500) = some s ∧ StatsExact s.shared := by
  have start : Reach (house .small) Free newHouse := .start ⟨rfl, rfl⟩
  refine ⟨_, rfl, (statsExact_of_reach (Machine.reach_trace start (t := twoSalesAt 500) rfl)).2 ⟨?_, ?_⟩⟩
  · decide +kernel
  · decide +kernel

/-- Two tokens sold at the highest price that the checks admit: the health check fails. -/
theorem twoSales_not_statsExact : ¬ ∀ (c : CafeConfig) (s : House c), Reach (house c) Free s → StatsExact s.shared := by
  intro h
  have start : Reach (house .small) Free newHouse := .start ⟨rfl, rfl⟩
  have hexact := h .small _ (Machine.reach_trace start (t := twoSalesAt 9223372036854775807) rfl)
  have hhealth := congrArg Prod.fst hexact.health
  revert hhealth
  decide +kernel

end Didicafe
