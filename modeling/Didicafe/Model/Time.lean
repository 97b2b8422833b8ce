/-
Instants and timestamp texts as chrono and SQLite write and read them. An instant is a number of
nanoseconds since 1970-01-01 00:00:00 UTC; a stored timestamp is the text `%Y-%m-%d %H:%M:%S` of a
whole second. What is written is read back as the same second, and later seconds have greater texts.
-/
import Didicafe.Lib.Calendar
import Didicafe.Lib.Decimal

namespace Didicafe

open Decimal

/-- Nanoseconds in a second. -/
def nanosPerSec : Int := 1000000000

/-- The first and the last year of chrono's dates. -/
def minYear : Int := -262143

def maxYear : Int := 262142

/-- Second `sec` lies in a year that chrono's dates have. -/
def InRange (sec : Int) : Prop :=
  minYear ≤ (Calendar.ofDayNumber (sec / 86400)).year ∧ (Calendar.ofDayNumber (sec / 86400)).year ≤ maxYear

instance (sec : Int) : Decidable (InRange sec) := by unfold InRange; infer_instance

/-! ## Writing -/

/-- chrono's `%Y`: four digits, and a sign in front outside of the years 0 to 9999. -/
def formatYear (y : Int) : List Char :=
  if y < 0 then '-' :: padded 4 (-y).toNat
  else if y < 10000 then padded 4 y.toNat
  else '+' :: padded 4 y.toNat

/-- `format("%Y-%m-%d %H:%M:%S")` of second `sec`. SQLite's `datetime('now')` writes the same text
for the years 0 to 9999. -/
def formatTimestamp (sec : Int) : String :=
  let date := Calendar.ofDayNumber (sec / 86400)
  let t := (sec % 86400).toNat
  String.ofList (formatYear date.year ++ '-' :: padded 2 date.month.toNat ++
    '-' :: padded 2 date.day.toNat ++ ' ' :: padded 2 (t / 3600) ++
    ':' :: padded 2 (t / 60 % 60) ++ ':' :: padded 2 (t % 60))

/-- SQLite's `datetime('now')` at instant `now`. -/
def datetimeNow (now : Int) : String := formatTimestamp (now / nanosPerSec)

/-- SQLite's `datetime('now', '-n days')`; `NULL` before 4714-11-24 BC 12:00, its first instant, and for a negative
`n`, with which the modifier is malformed. -/
def datetimeDaysAgo (now n : Int) : Option String :=
  let sec := now / nanosPerSec - n * 86400
  if 0 ≤ n ∧ -210866760000 ≤ sec then some (formatTimestamp sec) else none

/-- The date `%Y-%m-%d` of a day, as SQLite's `date` writes it for the years 0 to 9999. -/
def formatDate (day : Int) : String :=
  let date := Calendar.ofDayNumber day
  String.ofList (formatYear date.year ++ '-' :: padded 2 date.month.toNat ++ '-' :: padded 2 date.day.toNat)

/-- The day of instant `now`. -/
def today (now : Int) : Int := now / nanosPerSec / 86400

/-! ## Reading -/

/-- Unicode white space, as `str::trim_start` removes it. -/
def isWhitespace (c : Char) : Bool :=
  let n := c.toNat
  (9 ≤ n && n ≤ 13) || n == 0x20 || n == 0x85 || n == 0xA0 || n == 0x1680 ||
    (0x2000 ≤ n && n ≤ 0x200A) || n == 0x2028 || n == 0x2029 || n == 0x202F || n == 0x205F || n == 0x3000

def trimStart (s : List Char) : List Char := s.dropWhile isWhitespace

/-- A literal character of the format. -/
def literal (c : Char) : List Char → Option (List Char)
  | a :: s => if a = c then some s else none
  | [] => none

/-- A two-digit field of the format. -/
def field (s : List Char) : Option (Nat × List Char) := number 2 (trimStart s)

/-- `%Y`: at most four digits, or a sign and any number of digits. -/
def parseYear (s : List Char) : Option (Int × List Char) :=
  match trimStart s with
  | '-' :: s => (number s.length s).map fun (n, s) => (-(n : Int), s)
  | '+' :: s => (number s.length s).map fun (n, s) => ((n : Int), s)
  | s => (number 4 s).map fun (n, s) => ((n : Int), s)

/-- The second of a date and a time of day; none when there is no such date or time. A second 60
is read as the one after 59. -/
def ofFields (year : Int) (month day hour min sec : Nat) : Option Int :=
  if (minYear ≤ year ∧ year ≤ maxYear) ∧ (⟨year, month, day⟩ : Calendar.Date).Valid ∧
      hour < 24 ∧ min < 60 ∧ sec ≤ 60 then
    some (Calendar.dayNumber ⟨year, month, day⟩ * 86400 + hour * 3600 + min * 60 + sec)
  else none

/-- `NaiveDateTime::parse_from_str(text, "%Y-%m-%d %H:%M:%S")`, as a second. -/
def parseTimestamp (text : String) : Option Int := do
  let (year, s) ← parseYear text.toList
  let s ← literal '-' s
  let (month, s) ← field s
  let s ← literal '-' s
  let (day, s) ← field s
  let (hour, s) ← field (trimStart s)
  let s ← literal ':' s
  let (min, s) ← field s
  let s ← literal ':' s
  let (sec, s) ← field s
  if s = [] then ofFields year month day hour min sec else none

/-! ## What is written is read back -/

theorem not_isWhitespace_of_isDigit {c : Char} (h : c.isDigit = true) : isWhitespace c = false := by
  have : 48 ≤ c.toNat ∧ c.toNat ≤ 57 := by
    simp only [Char.isDigit, Bool.and_eq_true, decide_eq_true_eq, UInt32.le_iff_toNat_le] at h
    exact h
  simp only [isWhitespace, Bool.or_eq_false_iff, Bool.and_eq_false_iff, decide_eq_false_iff_not, beq_eq_false_iff_ne]
  omega

theorem trimStart_padded (width n : Nat) (rest : List Char) :
    trimStart (padded width n ++ rest) = padded width n ++ rest := by
  have hne := padded_ne_nil width n
  have hd : ∀ c ∈ padded width n, c.isDigit = true := fun c hc => isDigit_of_mem_padded hc
  generalize padded width n = ds at hne hd
  cases ds with
  | nil => exact absurd rfl hne
  | cons c ds =>
    unfold trimStart
    simp [not_isWhitespace_of_isDigit (hd c (List.mem_cons_self ..))]

theorem trimStart_cons {c : Char} {s : List Char} (h : isWhitespace c = false) : trimStart (c :: s) = c :: s := by
  unfold trimStart; simp [h]

theorem field_padded {n : Nat} (h : n < 100) (rest : List Char) : field (padded 2 n ++ rest) = some (n, rest) := by
  unfold field
  rw [trimStart_padded, number_padded_exact (by decide) h]

theorem parseYear_padded (n : Nat) (rest : List Char) :
    parseYear (padded 4 n ++ rest) = (number 4 (padded 4 n ++ rest)).map fun (n, s) => ((n : Int), s) := by
  have hne := padded_ne_nil 4 n
  have hd : ∀ c ∈ padded 4 n, c.isDigit = true := fun c hc => isDigit_of_mem_padded hc
  unfold parseYear
  rw [trimStart_padded]
  generalize padded 4 n = ds at hne hd
  cases ds with
  | nil => exact absurd rfl hne
  | cons c ds =>
    have hc := hd c (List.mem_cons_self ..)
    rw [List.cons_append]
    split
    · rename_i h; cases h; exact absurd hc (by decide)
    · rename_i h; cases h; exact absurd hc (by decide)
    · rfl

theorem parseYear_formatYear (y : Int) (rest : List Char) :
    parseYear (formatYear y ++ '-' :: rest) = some (y, '-' :: rest) := by
  have stops : Stops ('-' :: rest) := by intro c hc; cases hc; rfl
  have signed : ∀ n, number (padded 4 n ++ '-' :: rest).length (padded 4 n ++ '-' :: rest) = some (n, '-' :: rest) :=
    fun n => number_padded (by simp) (.inr stops)
  unfold formatYear
  split
  · have : trimStart ('-' :: (padded 4 (-y).toNat ++ '-' :: rest)) = '-' :: (padded 4 (-y).toNat ++ '-' :: rest) :=
      trimStart_cons rfl
    simp only [List.cons_append, parseYear, this, signed, Option.map_some]
    rw [show -(((-y).toNat : Nat) : Int) = y by omega]
  · split
    · rw [parseYear_padded, number_padded_exact (by decide) (by omega)]
      simp only [Option.map_some]
      rw [show ((y.toNat : Nat) : Int) = y by omega]
    · have : trimStart ('+' :: (padded 4 y.toNat ++ '-' :: rest)) = '+' :: (padded 4 y.toNat ++ '-' :: rest) :=
        trimStart_cons rfl
      simp only [List.cons_append, parseYear, this, signed, Option.map_some]
      rw [show ((y.toNat : Nat) : Int) = y by omega]

/-- The fields of a text are those of the second it was written for. -/
theorem parseTimestamp_fields (sec : Int) : parseTimestamp (formatTimestamp sec) =
    ofFields (Calendar.ofDayNumber (sec / 86400)).year (Calendar.ofDayNumber (sec / 86400)).month.toNat
      (Calendar.ofDayNumber (sec / 86400)).day.toNat ((sec % 86400).toNat / 3600) ((sec % 86400).toNat / 60 % 60)
      ((sec % 86400).toNat % 60) := by
  have hv := Calendar.valid_ofDayNumber (sec / 86400)
  obtain ⟨hm1, hm2, hd1, hd2⟩ := hv
  have hd31 := Calendar.daysInMonth_le (Calendar.ofDayNumber (sec / 86400)).year
    (Calendar.ofDayNumber (sec / 86400)).month
  unfold formatTimestamp parseTimestamp
  simp only [String.toList_ofList, List.append_assoc, List.cons_append]
  generalize Calendar.ofDayNumber (sec / 86400) = date at *
  have ht : (sec % 86400).toNat < 86400 := by omega
  have space : ∀ s, trimStart (' ' :: (padded 2 ((sec % 86400).toNat / 3600) ++ s)) =
      padded 2 ((sec % 86400).toNat / 3600) ++ s := fun s => trimStart_padded 2 _ s
  have last : field (padded 2 ((sec % 86400).toNat % 60)) = some ((sec % 86400).toNat % 60, []) := by
    rw [← List.append_nil (padded 2 _), field_padded (by omega)]
  simp only [parseYear_formatYear, Option.bind_eq_bind, Option.bind_some, literal, if_true, space, last,
    field_padded (show date.month.toNat < 100 by omega), field_padded (show date.day.toNat < 100 by omega),
    field_padded (show (sec % 86400).toNat / 3600 < 100 by omega),
    field_padded (show (sec % 86400).toNat / 60 % 60 < 100 by omega)]

/-- The text of a second is read back as that second. -/
theorem parseTimestamp_formatTimestamp {sec : Int} (hr : InRange sec) :
    parseTimestamp (formatTimestamp sec) = some sec := by
  have hv := Calendar.valid_ofDayNumber (sec / 86400)
  have hn := Calendar.dayNumber_ofDayNumber (sec / 86400)
  rw [parseTimestamp_fields]
  unfold InRange at hr
  unfold ofFields
  generalize Calendar.ofDayNumber (sec / 86400) = date at *
  obtain ⟨y, m, d⟩ := date
  have hmonth : ((m.toNat : Nat) : Int) = m := Int.toNat_of_nonneg (by have := hv.1; simp only at this; omega)
  have hday : ((d.toNat : Nat) : Int) = d := Int.toNat_of_nonneg (by have := hv.2.2.1; simp only at this; omega)
  rw [hmonth, hday, if_pos ⟨hr, hv, by omega, by omega, by omega⟩, hn]
  congr 1; omega

/-- In a year that chrono does not have, it is not read back. -/
theorem parseTimestamp_formatTimestamp_none {sec : Int} (hr : ¬ InRange sec) :
    parseTimestamp (formatTimestamp sec) = none := by
  rw [parseTimestamp_fields]
  unfold ofFields
  exact if_neg fun h => hr h.1

/-- Different days have different dates. -/
theorem formatDate_injective {m n : Int} (h : formatDate m = formatDate n) : m = n := by
  obtain ⟨hm1, hm2, hd1, hd2⟩ := Calendar.valid_ofDayNumber m
  obtain ⟨hm1', hm2', hd1', hd2'⟩ := Calendar.valid_ofDayNumber n
  have hd31 := Calendar.daysInMonth_le (Calendar.ofDayNumber m).year (Calendar.ofDayNumber m).month
  have hd31' := Calendar.daysInMonth_le (Calendar.ofDayNumber n).year (Calendar.ofDayNumber n).month
  suffices hdate : Calendar.ofDayNumber m = Calendar.ofDayNumber n by
    rw [← Calendar.dayNumber_ofDayNumber m, hdate, Calendar.dayNumber_ofDayNumber]
  unfold formatDate at h
  have h := String.ofList_injective h
  simp only [List.append_assoc, List.cons_append] at h
  generalize Calendar.ofDayNumber m = a at *
  generalize Calendar.ofDayNumber n = b at *
  have hy := congrArg parseYear h
  rw [parseYear_formatYear, parseYear_formatYear] at hy
  obtain ⟨hyear, hrest⟩ := Prod.mk.inj (Option.some.inj hy)
  have hmonth := congrArg field (List.cons.inj hrest).2
  rw [field_padded (by omega), field_padded (by omega)] at hmonth
  obtain ⟨hmonth, hrest⟩ := Prod.mk.inj (Option.some.inj hmonth)
  have hday := congrArg field (List.cons.inj hrest).2
  rw [← List.append_nil (padded 2 a.day.toNat), ← List.append_nil (padded 2 b.day.toNat), field_padded (by omega),
    field_padded (by omega)] at hday
  obtain ⟨hday, -⟩ := Prod.mk.inj (Option.some.inj hday)
  obtain ⟨y, m', d⟩ := a
  obtain ⟨y', m'', d'⟩ := b
  simp only [Calendar.Date.mk.injEq] at *
  omega

/-! ## Later seconds have greater texts -/

/-- Second `sec` lies in a year of four digits. -/
def FourDigits (sec : Int) : Prop :=
  0 ≤ (Calendar.ofDayNumber (sec / 86400)).year ∧ (Calendar.ofDayNumber (sec / 86400)).year ≤ 9999

instance (sec : Int) : Decidable (FourDigits sec) := by unfold FourDigits; infer_instance

theorem FourDigits.inRange {sec : Int} (h : FourDigits sec) : InRange sec := by
  unfold FourDigits at h
  unfold InRange minYear maxYear
  omega

theorem formatYear_fourDigits {y : Int} (h : 0 ≤ y ∧ y ≤ 9999) : formatYear y = padded 4 y.toNat := by
  unfold formatYear
  rw [if_neg (by omega), if_pos (by omega)]

theorem cons_lt {c : Char} {xs ys : List Char} : c :: xs < c :: ys ↔ xs < ys := List.cons_lt_cons_self

theorem clock_lt {s t : Nat} : s < t ↔ s / 3600 < t / 3600 ∨ s / 3600 = t / 3600 ∧
    (s / 60 % 60 < t / 60 % 60 ∨ s / 60 % 60 = t / 60 % 60 ∧ s % 60 < t % 60) := by
  have split : ∀ s t : Nat, s < t ↔ s / 60 < t / 60 ∨ s / 60 = t / 60 ∧ s % 60 < t % 60 := fun s t => by omega
  rw [split s t, split (s / 60) (t / 60), Nat.div_div_eq_div_mul, Nat.div_div_eq_div_mul]
  omega

/-- Day `day` lies in a year of four digits. -/
def FourDigitDay (day : Int) : Prop := 0 ≤ (Calendar.ofDayNumber day).year ∧ (Calendar.ofDayNumber day).year ≤ 9999

instance (day : Int) : Decidable (FourDigitDay day) := by unfold FourDigitDay; infer_instance

theorem FourDigitDay.mono {lo day hi : Int} (hlo : FourDigitDay lo) (hhi : FourDigitDay hi) (h1 : lo ≤ day)
    (h2 : day ≤ hi) : FourDigitDay day :=
  ⟨Int.le_trans hlo.1 (Calendar.year_mono h1), Int.le_trans (Calendar.year_mono h2) hhi.2⟩

/-- Texts that begin with dates are ordered by these, then by the rest. -/
theorem formatDate_append_lt {m n : Int} (hm : FourDigitDay m) (hn : FourDigitDay n) (xs ys : List Char) :
    (formatDate m).toList ++ xs < (formatDate n).toList ++ ys ↔ m < n ∨ m = n ∧ xs < ys := by
  have hlt := Calendar.lt_iff_before (m := m) (n := n)
  have heq : m = n ↔ ¬ m < n ∧ ¬ n < m := by omega
  have hgt := Calendar.lt_iff_before (m := n) (n := m)
  have hdm := Calendar.daysInMonth_le (Calendar.ofDayNumber m).year (Calendar.ofDayNumber m).month
  have hdn := Calendar.daysInMonth_le (Calendar.ofDayNumber n).year (Calendar.ofDayNumber n).month
  obtain ⟨hmm1, hmm2, hmd1, hmd2⟩ := Calendar.valid_ofDayNumber m
  obtain ⟨hnm1, hnm2, hnd1, hnd2⟩ := Calendar.valid_ofDayNumber n
  unfold FourDigitDay at hm hn
  unfold Calendar.Date.Before at hlt hgt
  unfold formatDate
  simp only [String.toList_ofList, List.append_assoc, List.cons_append]
  rw [formatYear_fourDigits hm, formatYear_fourDigits hn, heq, hlt, hgt]
  clear heq hlt hgt
  generalize Calendar.ofDayNumber m = a at *
  generalize Calendar.ofDayNumber n = b at *
  rw [padded_append_lt (by decide) (by omega) (by omega), cons_lt,
    padded_append_lt (by decide) (by omega) (by omega), cons_lt,
    padded_append_lt (by decide) (by omega) (by omega)]
  by_cases hrest : xs < ys
  · simp only [hrest, and_true]
    omega
  · simp only [hrest, and_false, or_false]
    omega

theorem formatDate_lt {m n : Int} (hm : FourDigitDay m) (hn : FourDigitDay n) :
    formatDate m < formatDate n ↔ m < n := by
  rw [String.lt_iff, ← List.append_nil (formatDate m).toList, ← List.append_nil (formatDate n).toList,
    formatDate_append_lt hm hn]
  simp only [List.not_lt_nil, and_false, or_false]

/-- The text of a second is its date, and the time of day behind it. -/
theorem toList_formatTimestamp (sec : Int) : (formatTimestamp sec).toList = (formatDate (sec / 86400)).toList ++
    ' ' :: padded 2 ((sec % 86400).toNat / 3600) ++ ':' :: padded 2 ((sec % 86400).toNat / 60 % 60) ++
    ':' :: padded 2 ((sec % 86400).toNat % 60) := by
  unfold formatTimestamp formatDate
  simp only [String.toList_ofList]

/-- A timestamp is at least a date exactly when it is of this date or of a later one. -/
theorem formatDate_le_formatTimestamp {day sec : Int} (hd : FourDigitDay day) (hs : FourDigits sec) :
    formatDate day ≤ formatTimestamp sec ↔ day ≤ sec / 86400 := by
  rw [← String.not_lt, String.lt_iff, toList_formatTimestamp, List.append_assoc, List.append_assoc,
    ← List.append_nil (formatDate day).toList, formatDate_append_lt hs hd]
  simp only [List.not_lt_nil, and_false, or_false]
  omega

theorem formatTimestamp_lt {a b : Int} (ha : FourDigits a) (hb : FourDigits b) :
    formatTimestamp a < formatTimestamp b ↔ a < b := by
  have hclock := clock_lt (s := (a % 86400).toNat) (t := (b % 86400).toNat)
  have hsplit : a < b ↔ a / 86400 < b / 86400 ∨ a / 86400 = b / 86400 ∧ (a % 86400).toNat < (b % 86400).toNat := by
    omega
  rw [String.lt_iff, toList_formatTimestamp, toList_formatTimestamp]
  simp only [List.append_assoc, List.cons_append]
  rw [formatDate_append_lt ha hb, cons_lt, padded_append_lt (by decide) (by omega) (by omega), cons_lt,
    padded_append_lt (by decide) (by omega) (by omega), cons_lt,
    ← List.append_nil (padded 2 ((a % 86400).toNat % 60)), ← List.append_nil (padded 2 ((b % 86400).toNat % 60)),
    padded_append_lt (by decide) (by omega) (by omega)]
  simp only [List.not_lt_nil, and_false, or_false]
  rw [← hclock, hsplit]

theorem datetimeNow_lt {now e : Int} (hn : FourDigits (now / nanosPerSec)) (he : FourDigits e) :
    datetimeNow now < formatTimestamp e ↔ now < e * nanosPerSec := by
  unfold datetimeNow
  rw [formatTimestamp_lt hn he]
  unfold nanosPerSec
  omega

example : formatTimestamp 1709210096 = "2024-02-29 12:34:56" := by decide

end Didicafe
