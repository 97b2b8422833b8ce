/-
The proleptic Gregorian calendar on day numbers (day 0 is 1970-01-01): the date of a day, the day
of a date, and that going from a day to its date and back is the identity, with every date so
reached valid.

Years are counted from March 1st inside the proofs, so that the leap day is the last of its year
and the months before it start at fixed offsets.
-/
import Mathlib.Tactic.Common

namespace Didicafe.Calendar

structure Date where
  year : Int
  month : Int
  day : Int
deriving DecidableEq, Repr

def isLeap (y : Int) : Bool := y % 4 == 0 && (y % 100 != 0 || y % 400 == 0)

def daysInMonth (y m : Int) : Int :=
  if m = 2 then (if isLeap y then 29 else 28)
  else if m = 4 ∨ m = 6 ∨ m = 9 ∨ m = 11 then 30 else 31

/-- A date of the calendar: the month and the day of the month exist. -/
def Date.Valid (d : Date) : Prop :=
  1 ≤ d.month ∧ d.month ≤ 12 ∧ 1 ≤ d.day ∧ d.day ≤ daysInMonth d.year d.month

instance (d : Date) : Decidable d.Valid := by unfold Date.Valid; infer_instance

/-- Days from March 1st of year 0 to March 1st of year `y`. -/
def yearStart (y : Int) : Int := 365 * y + y / 4 - y / 100 + y / 400

/-- Days from March 1st to the first of the `m`-th month after March. -/
def monthStart (m : Int) : Int := (153 * m + 2) / 5

/-- The day number of 1970-01-01, counted from March 1st of year 0. -/
def epoch : Int := 719468

def dayNumber (d : Date) : Int :=
  if d.month ≤ 2 then yearStart (d.year - 1) + monthStart (d.month + 9) + (d.day - 1) - epoch
  else yearStart d.year + monthStart (d.month - 3) + (d.day - 1) - epoch

/-- The year from March 1st in which day `z` (counted from March 1st of year 0) falls. -/
def marchYear (z : Int) : Int :=
  let r400 := z % 146097
  let q100 := min (r400 / 36524) 3
  let r100 := r400 - 36524 * q100
  let q1 := min (r100 % 1461 / 365) 3
  400 * (z / 146097) + 100 * q100 + 4 * (r100 / 1461) + q1

def ofDayNumber (n : Int) : Date :=
  let z := n + epoch
  let y := marchYear z
  let doy := z - yearStart y
  let m := (5 * doy + 2) / 153
  let d := doy - monthStart m + 1
  if m < 10 then ⟨y, m + 3, d⟩ else ⟨y + 1, m - 9, d⟩

theorem daysInMonth_le (y m : Int) : daysInMonth y m ≤ 31 := by
  unfold daysInMonth
  split
  · split <;> omega
  · split <;> omega

/-! ## Years -/

theorem yearStart_quot (a b c e : Int) (hb : 0 ≤ b ∧ b ≤ 3) (hc : 0 ≤ c ∧ c ≤ 24) (he : 0 ≤ e ∧ e ≤ 3) :
    yearStart (400 * a + 100 * b + 4 * c + e) = 146097 * a + 36524 * b + 1461 * c + 365 * e := by
  unfold yearStart
  have h4 : (400 * a + 100 * b + 4 * c + e) / 4 = 100 * a + 25 * b + c := by omega
  have h100 : (400 * a + 100 * b + 4 * c + e) / 100 = 4 * a + b := by omega
  have h400 : (400 * a + 100 * b + 4 * c + e) / 400 = a := by omega
  rw [h4, h100, h400]; omega

theorem yearStart_succ (y : Int) :
    yearStart (y + 1) = yearStart y + (if isLeap (y + 1) then 366 else 365) := by
  unfold yearStart isLeap
  split <;> rename_i h <;> simp only [Bool.and_eq_true, Bool.or_eq_true, beq_iff_eq, bne_iff_ne] at h <;> omega

/-- `marchYear` splits the days into 400-, 100-, 4- and 1-year cycles, the last of each one day
longer than the others. -/
theorem marchYear_split (z : Int) : ∃ a b c e r, marchYear z = 400 * a + 100 * b + 4 * c + e ∧
    z = 146097 * a + 36524 * b + 1461 * c + 365 * e + r ∧ (0 ≤ b ∧ b ≤ 3) ∧ (0 ≤ c ∧ c ≤ 24) ∧
    (0 ≤ e ∧ e ≤ 3) ∧ 0 ≤ r ∧ (e < 3 → r < 365) ∧ (e = 3 → r < 366) ∧
    (e = 3 → c = 24 → b < 3 → r < 365) := by
  have ha := Int.mul_ediv_add_emod z 146097
  have hr := Int.emod_nonneg z (by decide : (146097 : Int) ≠ 0)
  have hr' := Int.emod_lt_of_pos z (by decide : (0 : Int) < 146097)
  unfold marchYear
  simp only
  generalize z % 146097 = r400 at ha hr hr' ⊢
  generalize z / 146097 = a at ha ⊢
  refine ⟨a, min (r400 / 36524) 3, (r400 - 36524 * min (r400 / 36524) 3) / 1461,
    min ((r400 - 36524 * min (r400 / 36524) 3) % 1461 / 365) 3,
    (r400 - 36524 * min (r400 / 36524) 3) % 1461 -
      365 * min ((r400 - 36524 * min (r400 / 36524) 3) % 1461 / 365) 3, rfl, ?_⟩
  omega

theorem yearStart_marchYear (z : Int) :
    yearStart (marchYear z) ≤ z ∧ z < yearStart (marchYear z + 1) := by
  obtain ⟨a, b, c, e, r, hy, hz, hb, hc, he, hr0, hr1, hr2, hr3⟩ := marchYear_split z
  rw [hy, yearStart_quot a b c e hb hc he]
  refine ⟨by omega, ?_⟩
  -- the year after the last of a cycle is the first of the next one
  by_cases h : e < 3
  · rw [show 400 * a + 100 * b + 4 * c + e + 1 = 400 * a + 100 * b + 4 * c + (e + 1) by omega,
      yearStart_quot a b c (e + 1) hb hc (by omega)]
    omega
  by_cases h' : c < 24
  · rw [show 400 * a + 100 * b + 4 * c + e + 1 = 400 * a + 100 * b + 4 * (c + 1) + 0 by omega,
      yearStart_quot a b (c + 1) 0 hb (by omega) (by omega)]
    omega
  by_cases h'' : b < 3
  · rw [show 400 * a + 100 * b + 4 * c + e + 1 = 400 * a + 100 * (b + 1) + 4 * 0 + 0 by omega,
      yearStart_quot a (b + 1) 0 0 (by omega) (by omega) (by omega)]
    omega
  · rw [show 400 * a + 100 * b + 4 * c + e + 1 = 400 * (a + 1) + 100 * 0 + 4 * 0 + 0 by omega,
      yearStart_quot (a + 1) 0 0 0 (by omega) (by omega) (by omega)]
    omega

/-! ## Days and dates -/

/-- A day from March 1st on of a year lies in the month that starts last before it. -/
theorem monthStart_le_lt (doy : Int) (h0 : 0 ≤ doy) (h1 : doy ≤ 365) :
    0 ≤ (5 * doy + 2) / 153 ∧ (5 * doy + 2) / 153 ≤ 11 ∧ monthStart ((5 * doy + 2) / 153) ≤ doy ∧
      doy < monthStart ((5 * doy + 2) / 153 + 1) := by
  unfold monthStart; omega

theorem dayNumber_ofDayNumber (n : Int) : dayNumber (ofDayNumber n) = n := by
  obtain ⟨hlo, hhi⟩ := yearStart_marchYear (n + epoch)
  have hlen := yearStart_succ (marchYear (n + epoch))
  have hd : n + epoch - yearStart (marchYear (n + epoch)) ≤ 365 := by
    split at hlen <;> omega
  obtain ⟨m0, m11, -, -⟩ := monthStart_le_lt (n + epoch - yearStart (marchYear (n + epoch))) (by omega) hd
  unfold ofDayNumber
  simp only
  generalize marchYear (n + epoch) = y at *
  generalize (5 * (n + epoch - yearStart y) + 2) / 153 = m at *
  unfold dayNumber
  split
  · rw [if_neg (by simp only; omega)]
    simp only [Int.add_sub_cancel]; omega
  · rw [if_pos (by simp only; omega)]
    simp only [Int.add_sub_cancel, Int.sub_add_cancel]; omega

theorem valid_ofDayNumber (n : Int) : (ofDayNumber n).Valid := by
  obtain ⟨hlo, hhi⟩ := yearStart_marchYear (n + epoch)
  have hlen := yearStart_succ (marchYear (n + epoch))
  have hd : n + epoch - yearStart (marchYear (n + epoch)) ≤ 365 := by
    split at hlen <;> omega
  obtain ⟨m0, m11, mlo, mhi⟩ := monthStart_le_lt (n + epoch - yearStart (marchYear (n + epoch))) (by omega) hd
  unfold ofDayNumber
  simp only
  generalize marchYear (n + epoch) = y at *
  generalize (5 * (n + epoch - yearStart y) + 2) / 153 = m at *
  unfold monthStart at *
  unfold Date.Valid daysInMonth
  split
  · refine ⟨by simp only; omega, by simp only; omega, by simp only; omega, ?_⟩
    simp only
    rw [if_neg (by omega)]
    split <;> omega
  · refine ⟨by simp only; omega, by simp only; omega, by simp only; omega, ?_⟩
    simp only
    -- January has 31 days; the last day of February is the last day of the year
    split
    · split at hlen <;> rename_i h
      · rw [if_pos h]; omega
      · rw [if_neg h]; omega
    · rw [if_neg (by omega)]; omega

/-! ## The order of dates -/

theorem yearStart_mono {y z : Int} (h : y ≤ z) : yearStart y ≤ yearStart z := by
  unfold yearStart; omega

theorem yearStart_add_le (y : Int) : yearStart (y - 1) + 365 ≤ yearStart y := by
  have h := yearStart_succ (y - 1)
  rw [Int.sub_add_cancel] at h
  split at h <;> omega

/-- The lengths of the months; the year from March 1st ends with February. -/
theorem daysInMonth_cases (y m : Int) : daysInMonth y m ≤ 31 ∧
    (m = 4 ∨ m = 6 ∨ m = 9 ∨ m = 11 → daysInMonth y m = 30) ∧
    (m = 2 → yearStart (y - 1) + 337 + daysInMonth y m = yearStart y) := by
  have hsucc := yearStart_succ (y - 1)
  rw [Int.sub_add_cancel] at hsucc
  refine ⟨daysInMonth_le y m, fun h => ?_, fun h => ?_⟩
  · unfold daysInMonth
    rw [if_neg (by omega), if_pos h]
  · unfold daysInMonth
    rw [if_pos h]
    split at hsucc <;> rename_i hl
    · rw [if_pos hl]; omega
    · rw [if_neg hl]; omega

/-- The months before the last one of a year from March 1st, with their days, fit before the later ones. -/
theorem monthStart_lt {a b : Int} (h0 : 0 ≤ a) (hab : a < b) (hb : b ≤ 11) : monthStart a + 30 ≤ monthStart b ∧
    (a ≠ 1 → a ≠ 3 → a ≠ 6 → a ≠ 8 → monthStart a + 31 ≤ monthStart b) := by
  have hmono : monthStart (a + 1) ≤ monthStart b := by unfold monthStart; omega
  have hlen : monthStart a + 30 ≤ monthStart (a + 1) ∧
      (a ≠ 1 → a ≠ 3 → a ≠ 6 → a ≠ 8 → monthStart a + 31 ≤ monthStart (a + 1)) := by
    unfold monthStart
    constructor
    · omega
    · intro h1 h3 h6 h8
      have : a = 0 ∨ a = 2 ∨ a = 4 ∨ a = 5 ∨ a = 7 ∨ a = 9 ∨ a = 10 := by omega
      omega
  omega

/-- Date `d` comes before date `e`, by year, month and day. -/
def Date.Before (d e : Date) : Prop :=
  d.year < e.year ∨ d.year = e.year ∧ (d.month < e.month ∨ d.month = e.month ∧ d.day < e.day)

theorem dayNumber_bounds {d : Date} (h : d.Valid) :
    yearStart (d.year - 1) + 306 ≤ dayNumber d + epoch ∧ dayNumber d + epoch ≤ yearStart d.year + 305 := by
  obtain ⟨hm1, hm2, hd1, hd2⟩ := h
  obtain ⟨h31, h30, hfeb⟩ := daysInMonth_cases d.year d.month
  have := yearStart_add_le d.year
  unfold dayNumber monthStart
  split <;> omega

theorem dayNumber_lt {d e : Date} (hd : d.Valid) (he : e.Valid) (h : d.Before e) : dayNumber d < dayNumber e := by
  have bd := (dayNumber_bounds hd).2
  have be := (dayNumber_bounds he).1
  rcases h with hy | ⟨hy, h⟩
  · have := yearStart_mono (show d.year ≤ e.year - 1 by omega)
    omega
  · obtain ⟨hm1, hm2, hd1, hd2⟩ := hd
    obtain ⟨hm1', hm2', hd1', hd2'⟩ := he
    obtain ⟨h31, h30, hfeb⟩ := daysInMonth_cases d.year d.month
    rcases h with hlt | ⟨heq, hlt⟩
    · unfold dayNumber at *
      rw [← hy]
      split <;> split
      · have := monthStart_lt (a := d.month + 9) (b := e.month + 9) (by omega) (by omega) (by omega)
        omega
      · -- the year from March 1st on starts after the February before it
        have := yearStart_add_le d.year
        unfold monthStart
        omega
      · omega
      · have := monthStart_lt (a := d.month - 3) (b := e.month - 3) (by omega) (by omega) (by omega)
        omega
    · unfold dayNumber
      rw [← hy, ← heq]
      split <;> omega

/-- The days are ordered like their dates. -/
theorem lt_iff_before {m n : Int} : m < n ↔ (ofDayNumber m).Before (ofDayNumber n) := by
  have hm := valid_ofDayNumber m
  have hn := valid_ofDayNumber n
  constructor
  · intro h
    by_contra hb
    have : (ofDayNumber n).Before (ofDayNumber m) ∨ ofDayNumber m = ofDayNumber n := by
      rw [Date.mk.injEq]
      unfold Date.Before at hb ⊢
      omega
    rcases this with h' | h'
    · have := dayNumber_lt hn hm h'
      rw [dayNumber_ofDayNumber, dayNumber_ofDayNumber] at this
      omega
    · have := congrArg dayNumber h'
      rw [dayNumber_ofDayNumber, dayNumber_ofDayNumber] at this
      omega
  · intro h
    have := dayNumber_lt hm hn h
    rwa [dayNumber_ofDayNumber, dayNumber_ofDayNumber] at this

theorem year_mono {m n : Int} (h : m ≤ n) : (ofDayNumber m).year ≤ (ofDayNumber n).year := by
  rcases Int.lt_or_eq_of_le h with hlt | rfl
  · have := lt_iff_before.1 hlt
    unfold Date.Before at this
    omega
  · exact Int.le_refl _

/-- The next day is in the same year or in the next one. -/
theorem year_succ_le (n : Int) : (ofDayNumber (n + 1)).year ≤ (ofDayNumber n).year + 1 := by
  have hlast := (dayNumber_bounds (valid_ofDayNumber n)).2
  have hfirst := (dayNumber_bounds (valid_ofDayNumber (n + 1))).1
  rw [dayNumber_ofDayNumber] at hlast hfirst
  by_contra hlt
  have hmono := yearStart_mono (show (ofDayNumber n).year + 1 ≤ (ofDayNumber (n + 1)).year - 1 by omega)
  have hyear := yearStart_add_le ((ofDayNumber n).year + 1)
  rw [Int.add_sub_cancel] at hyear
  omega

example : ofDayNumber 19782 = ⟨2024, 2, 29⟩ := by decide

end Didicafe.Calendar
