import Mathlib.Tactic.IntervalCases
import UsageBoard.Calendar

/-!
# The calendar day by day

The date of a day is computed from years that begin in March.  Here it is tied to the calendar as it is
usually described, by the lengths of the months and the leap years.

## Main statements

* `Date.ofDay_succ`: the date of the next day is the next date.
* `Date.ofDay_before`: of two days the earlier has the earlier date.
* `Date.year_lt_of_sameMonthDay`: a date of the year comes again in a later year.
-/

namespace UsageBoard.Calendar

def isLeap (year : Int) : Bool :=
  decide (year % 4 = 0) && (decide (year % 100 ≠ 0) || decide (year % 400 = 0))

def monthLength (year : Int) (month : Nat) : Nat :=
  if month = 2 then if isLeap year then 29 else 28
  else if month ∈ [4, 6, 9, 11] then 30 else 31

namespace Date

def next (date : Date) : Date :=
  if date.day < monthLength date.year date.month then { date with day := date.day + 1 }
  else if date.month < 12 then { date with month := date.month + 1, day := 1 }
  else ⟨date.year + 1, 1, 1⟩

/-- The order of dates, by year, month and day. -/
def Before (date other : Date) : Prop :=
  date.year < other.year ∨
    date.year = other.year ∧
      (date.month < other.month ∨ date.month = other.month ∧ date.day < other.day)

theorem Before.trans {first second third : Date} (early : first.Before second)
    (late : second.Before third) : first.Before third := by
  unfold Before at *
  omega

theorem before_next (date : Date) : date.Before date.next := by
  unfold Before next
  split
  · exact .inr ⟨rfl, .inr ⟨rfl, Nat.lt_succ_self _⟩⟩
  · split
    · exact .inr ⟨rfl, .inl (Nat.lt_succ_self _)⟩
    · exact .inl (Int.lt_add_one_of_le (Int.le_refl _))

end Date

/-! ## Years that begin in March -/

/-- The first of March of a year, as a day. -/
def marchOf (year : Int) : Int := 365 * year + year / 4 - year / 100 + year / 400 - 719468

/-- The days from the March of a year to the next. -/
def yearLength (year : Int) : Nat := if isLeap (year + 1) then 366 else 365

theorem marchOf_succ (year : Int) : marchOf (year + 1) = marchOf year + yearLength year := by
  unfold marchOf yearLength isLeap
  split
  · rename_i leap
    simp only [Bool.and_eq_true, Bool.or_eq_true, decide_eq_true_eq] at leap
    omega
  · rename_i common
    simp only [Bool.and_eq_true, Bool.or_eq_true, decide_eq_true_eq] at common
    omega

theorem yearLength_pos (year : Int) : 0 < yearLength year := by
  unfold yearLength
  split <;> decide

theorem lt_of_inYear {year : Int} {day : Nat} (inYear : day < yearLength year) : day < 366 := by
  unfold yearLength at inYear
  split at inYear <;> omega

theorem yearLength_add_eras (year era : Int) : yearLength (year + era * 400) = yearLength year := by
  have leap : isLeap (year + era * 400 + 1) = isLeap (year + 1) := by
    rw [isLeap, isLeap, Bool.eq_iff_iff]
    simp only [Bool.and_eq_true, Bool.or_eq_true, decide_eq_true_eq]
    omega
  rw [yearLength, leap, yearLength]

theorem exists_march (day : Int) : ∃ year, ∃ n : Nat, n < yearLength year ∧ day = marchOf year + n := by
  induction day using Int.inductionOn' (b := marchOf 0) with
  | zero => exact ⟨0, 0, yearLength_pos 0, (Int.add_zero _).symm⟩
  | succ day _ ih =>
      obtain ⟨year, n, inYear, rfl⟩ := ih
      by_cases more : n + 1 < yearLength year
      · exact ⟨year, n + 1, more, by omega⟩
      · have march := marchOf_succ year
        exact ⟨year + 1, 0, yearLength_pos _, by omega⟩
  | pred day _ ih =>
      obtain ⟨year, n, inYear, rfl⟩ := ih
      by_cases first : n = 0
      · have march := marchOf_succ (year - 1)
        have long := yearLength_pos (year - 1)
        rw [Int.sub_add_cancel] at march
        exact ⟨year - 1, yearLength (year - 1) - 1, by omega, by omega⟩
      · exact ⟨year, n - 1, by omega, by omega⟩

/-! ## Dates of such a year -/

theorem yearLength_cases {year day : Nat} (inEra : year < 400) (inYear : day < yearLength year) :
    day < 365 ∨ day = 365 ∧ year % 4 = 3 ∧ (year % 100 ≠ 99 ∨ year = 399) := by
  unfold yearLength isLeap at inYear
  split at inYear
  · rename_i leap
    simp only [Bool.and_eq_true, Bool.or_eq_true, decide_eq_true_eq] at leap
    omega
  · exact .inl inYear

/-- The year of a day of the 400 years after which the calendar repeats. -/
theorem yearOfEra_eq {year day : Nat} (inEra : year < 400) (inYear : day < yearLength year) :
    let dayOfEra := 365 * year + year / 4 - year / 100 + day
    (dayOfEra - dayOfEra / 1460 + dayOfEra / 36524 - dayOfEra / 146096) / 365 = year := by
  intro dayOfEra
  have cases := yearLength_cases inEra inYear
  have centuries : dayOfEra / 36524 = year / 100 + dayOfEra / 146096 := by
    by_cases last : dayOfEra = 146096
    · have century : year / 100 = 3 := by omega
      rw [last, century]
    · have early : dayOfEra / 146096 = 0 := by omega
      omega
  have leaps : dayOfEra / 1460 ≤ year / 4 + day ∧ year / 4 + day ≤ dayOfEra / 1460 + 364 := by
    have fourYears : dayOfEra + year / 100 = 1461 * (year / 4) + 365 * (year % 4) + day := by omega
    have century : year / 100 * 25 ≤ year / 4 := by omega
    clear_value dayOfEra
    omega
  omega

def dateFromMarch (year : Int) (day : Nat) : Date :=
  let monthFromMarch := (5 * day + 2) / 153
  let month := if monthFromMarch < 10 then monthFromMarch + 3 else monthFromMarch - 9
  ⟨year + (if month ≤ 2 then 1 else 0), month, day - (153 * monthFromMarch + 2) / 5 + 1⟩

theorem ofDay_march (year : Int) {day : Nat} (inYear : day < yearLength year) :
    Date.ofDay (marchOf year + day) = dateFromMarch year day := by
  obtain ⟨era, y, inEra, rfl⟩ : ∃ (era : Int) (y : Nat), y < 400 ∧ year = y + era * 400 :=
    ⟨year / 400, (year % 400).toNat, by omega, by omega⟩
  rw [yearLength_add_eras] at inYear
  have cases := yearLength_cases inEra inYear
  have hyear := yearOfEra_eq inEra inYear
  have shifted : marchOf (y + era * 400) + day + 719468 =
      146097 * era + (365 * y + y / 4 - y / 100 + day : Nat) := by
    have fourths : ((y : Int) + era * 400) / 4 = y / 4 + 100 * era := by omega
    have centuries : ((y : Int) + era * 400) / 100 = y / 100 + 4 * era := by omega
    have eras : ((y : Int) + era * 400) / 400 = era := by omega
    rw [marchOf, fourths, centuries, eras]
    omega
  have inWhole : 365 * y + y / 4 - y / 100 + day < 146097 := by
    clear hyear
    omega
  have hday : 365 * y + y / 4 - y / 100 + day - (365 * y + y / 4 - y / 100) = day :=
    Nat.add_sub_cancel_left ..
  generalize hdayOfEra : 365 * y + y / 4 - y / 100 + day = dayOfEra at hyear shifted inWhole hday
  have hera : (marchOf (y + era * 400) + day + 719468) / 146097 = era := by omega
  have hdayOfEra : ((marchOf (y + era * 400) + day + 719468) % 146097).toNat = dayOfEra := by omega
  simp only [Date.ofDay, dateFromMarch, hera, hdayOfEra, hyear, hday]

/-- The day of such a year on which one of its months begins. -/
def monthStart (month : Nat) : Nat := (153 * month + 2) / 5

theorem monthFromMarch_eq_iff {day month : Nat} :
    (5 * day + 2) / 153 = month ↔ monthStart month ≤ day ∧ day < monthStart (month + 1) := by
  unfold monthStart
  omega

def dateInMonth (year : Int) (month day : Nat) : Date :=
  let month := if month < 10 then month + 3 else month - 9
  ⟨year + (if month ≤ 2 then 1 else 0), month, day + 1⟩

theorem dateFromMarch_eq (year : Int) {day month : Nat} (inMonth : (5 * day + 2) / 153 = month) :
    dateFromMarch year day = dateInMonth year month (day - monthStart month) := by
  rw [← inMonth]
  rfl

theorem monthLength_dateInMonth (year : Int) {month : Nat} (inYear : month < 12) (day : Nat) :
    monthLength (dateInMonth year month day).year (dateInMonth year month day).month =
      if month = 11 then yearLength year - monthStart 11 else monthStart (month + 1) - monthStart month := by
  interval_cases month
  case «11» =>
    change (if isLeap (year + 1) then 29 else 28) = (if isLeap (year + 1) then 366 else 365) - 337
    split <;> rfl
  all_goals rfl

theorem dateFromMarch_succ (year : Int) {day : Nat} (inYear : day + 1 < yearLength year) :
    dateFromMarch year (day + 1) = (dateFromMarch year day).next := by
  have short : day < 365 := by
    unfold yearLength at inYear
    split at inYear <;> omega
  obtain ⟨month, inMonth⟩ : ∃ month, (5 * day + 2) / 153 = month := ⟨_, rfl⟩
  have hmonth : month < 12 := by omega
  have ⟨fromStart, toEnd⟩ := monthFromMarch_eq_iff.mp inMonth
  rw [dateFromMarch_eq year inMonth, Date.next, monthLength_dateInMonth year hmonth]
  by_cases more : day + 1 < monthStart (month + 1)
  · have later := monthFromMarch_eq_iff.mpr ⟨Nat.le_succ_of_le fromStart, more⟩
    rw [dateFromMarch_eq year later, if_pos]
    · simp only [dateInMonth, Nat.succ_sub fromStart]
    · simp only [dateInMonth]
      split
      · rename_i last
        rw [last] at fromStart ⊢
        omega
      · omega
  · have start : day + 1 = monthStart (month + 1) := by omega
    unfold monthStart at start
    have later : (5 * (day + 1) + 2) / 153 = month + 1 := by omega
    have early : month < 11 := by omega
    rw [dateFromMarch_eq year later, if_neg, start, ← monthStart, Nat.sub_self]
    · interval_cases month <;> simp [dateInMonth]
    · rw [if_neg early.ne, dateInMonth]
      dsimp only
      omega

theorem dateFromMarch_last (year : Int) {day : Nat} (last : day + 1 = yearLength year) :
    dateFromMarch (year + 1) 0 = (dateFromMarch year day).next := by
  unfold yearLength at last
  split at last
  · rename_i leap
    obtain rfl : day = 365 := by omega
    simp [dateFromMarch, Date.next, monthLength, leap]
  · rename_i common
    obtain rfl : day = 364 := by omega
    simp [dateFromMarch, Date.next, monthLength, common]

/-! ## The days one after the other -/

theorem Date.ofDay_succ (day : Int) : ofDay (day + 1) = (ofDay day).next := by
  obtain ⟨year, n, inYear, rfl⟩ := exists_march day
  rw [ofDay_march year inYear]
  by_cases more : n + 1 < yearLength year
  · rw [Int.add_assoc, ← dateFromMarch_succ year more]
    exact ofDay_march year more
  · have last : n + 1 = yearLength year := by omega
    have march : marchOf year + n + 1 = marchOf (year + 1) + (0 : Nat) := by
      rw [marchOf_succ, ← last]
      omega
    rw [← dateFromMarch_last year last, march]
    exact ofDay_march (year + 1) (yearLength_pos _)

theorem Date.ofDay_before {day other : Int} (earlier : day < other) :
    (ofDay day).Before (ofDay other) := by
  obtain ⟨steps, rfl⟩ : ∃ steps : Nat, other = day + 1 + steps := ⟨(other - day - 1).toNat, by omega⟩
  clear earlier
  induction steps with
  | zero =>
      rw [Int.natCast_zero, Int.add_zero, ofDay_succ]
      exact before_next _
  | succ steps ih =>
      rw [Int.natCast_succ, ← Int.add_assoc, ofDay_succ]
      exact ih.trans (before_next _)

/-- Every date has one of twelve months and one of 31 days. -/
theorem Date.ofDay_bounds (day : Int) :
    (ofDay day).month ∈ Set.Icc 1 12 ∧ (ofDay day).day ∈ Set.Icc 1 31 := by
  obtain ⟨year, n, inYear, rfl⟩ := exists_march day
  rw [ofDay_march year inYear]
  have short := lt_of_inYear inYear
  simp only [dateFromMarch, Set.mem_Icc]
  split <;> omega

/-! ## The same date of another year -/

theorem marchOf_add_le {year later : Int} (h : year ≤ later) :
    marchOf year + 365 * (later - year) ≤ marchOf later := by
  unfold marchOf
  omega

theorem dateFromMarch_inj {year other : Int} {day otherDay : Nat} (inYear : day < yearLength year)
    (inOther : otherDay < yearLength other)
    (sameMonth : (dateFromMarch year day).month = (dateFromMarch other otherDay).month)
    (sameDay : (dateFromMarch year day).day = (dateFromMarch other otherDay).day) : day = otherDay := by
  have short := lt_of_inYear inYear
  have otherShort := lt_of_inYear inOther
  simp only [dateFromMarch] at sameMonth sameDay
  have months : (5 * day + 2) / 153 = (5 * otherDay + 2) / 153 := by
    split at sameMonth <;> split at sameMonth <;> omega
  omega

theorem Date.year_lt_of_sameMonthDay {day later : Int} (earlier : day < later)
    (sameMonth : (ofDay day).month = (ofDay later).month)
    (sameDay : (ofDay day).day = (ofDay later).day) :
    (ofDay day).year < (ofDay later).year ∧ day + 365 ≤ later := by
  obtain ⟨year, n, inYear, rfl⟩ := exists_march day
  obtain ⟨other, m, inOther, rfl⟩ := exists_march later
  rw [ofDay_march year inYear, ofDay_march other inOther] at sameMonth sameDay ⊢
  obtain rfl := dateFromMarch_inj inYear inOther sameMonth sameDay
  have years : year < other := by
    by_contra le
    have march := marchOf_add_le (not_lt.mp le)
    omega
  have march := marchOf_add_le years.le
  refine ⟨?_, by omega⟩
  simp only [dateFromMarch]
  omega

end UsageBoard.Calendar
