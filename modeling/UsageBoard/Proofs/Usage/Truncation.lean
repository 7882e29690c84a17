import Mathlib.Algebra.Order.Ring.Int
import Mathlib.Order.Bounds.Basic
import UsageBoard.Saturating
import UsageBoard.Usage.Granularity

/-!
# Truncation near the end of the range

The start of the bucket in which a time lies is a product, which is below the range of 64 bits for the first
times of the range.  Those have no start; all other times are rounded down.

## Main statements

* `Granularity.isLeast_firstStart`: where the first bucket starts that has a start in the range.
* `Granularity.isSome_truncate?_iff`: a time has a start just if it is not before the first.
* `Granularity.truncate?_hour_bind`: the bucket of a time is that of its hour.
* `Granularity.truncate?_floors_iff`: which times have a start, and that it is what rounding down gives.
-/

namespace UsageBoard.Usage.Granularity

variable {granularity : Granularity} {time later start : Int64}

theorem seconds_pos (granularity : Granularity) : 0 < granularity.seconds := by
  cases granularity <;> decide

theorem truncate?_eq_some_iff :
    granularity.truncate? time = some start ↔
      time.toInt / granularity.seconds * granularity.seconds = start.toInt :=
  Words.int64?_eq_some_iff

theorem dvd_of_truncate? (truncated : granularity.truncate? time = some start) :
    granularity.seconds ∣ start.toInt := by
  rw [← truncate?_eq_some_iff.mp truncated]
  exact Int.dvd_mul_left _ _

/-- The first multiple of the width in the range of 64 bits. -/
def firstStart (granularity : Granularity) : Int :=
  -(Words.int64End / granularity.seconds * granularity.seconds)

theorem isLeast_firstStart (granularity : Granularity) :
    IsLeast {n | granularity.seconds ∣ n ∧ Words.fitsInt64 n} granularity.firstStart := by
  constructor
  · refine ⟨Int.dvd_neg.mpr (Int.dvd_mul_left _ _), ?_⟩
    cases granularity <;> decide
  · rintro n ⟨aligned, fits⟩
    rw [Words.fitsInt64_iff] at fits
    cases granularity <;> simp only [firstStart, seconds, Saturating.int64End_eq] at aligned ⊢ <;> omega

theorem isSome_truncate?_iff :
    (granularity.truncate? time).isSome ↔ granularity.firstStart ≤ time.toInt := by
  have least := time.le_toInt
  have most := time.toInt_lt
  rw [truncate?, Words.isSome_int64?_iff, Words.fitsInt64_iff]
  cases granularity <;> simp only [firstStart, seconds, Saturating.int64End_eq] <;> omega

/-! ## Rounding down -/

theorem isGreatest_of_truncate? (truncated : granularity.truncate? time = some start) :
    IsGreatest {n | granularity.seconds ∣ n ∧ n ≤ time.toInt} start.toInt := by
  have positive := granularity.seconds_pos
  rw [← truncate?_eq_some_iff.mp truncated]
  refine ⟨⟨Int.dvd_mul_left _ _, Int.ediv_mul_le _ positive.ne'⟩, ?_⟩
  rintro _ ⟨⟨k, rfl⟩, notAfter⟩
  rw [Int.mul_comm] at notAfter ⊢
  exact Int.mul_le_mul_of_nonneg_right ((Int.le_ediv_iff_mul_le positive).mpr notAfter) positive.le

theorem lt_add_of_truncate? (truncated : granularity.truncate? time = some start) :
    time.toInt < start.toInt + granularity.seconds := by
  have next := Int.lt_ediv_add_one_mul_self time.toInt granularity.seconds_pos
  rwa [Int.add_mul, Int.one_mul, truncate?_eq_some_iff.mp truncated] at next

theorem truncate?_truncate? (truncated : granularity.truncate? time = some start) :
    granularity.truncate? start = some start :=
  truncate?_eq_some_iff.mpr (Int.ediv_mul_cancel (dvd_of_truncate? truncated))

theorem exists_truncate?_of_le (truncated : granularity.truncate? time = some start) (order : time ≤ later) :
    ∃ laterStart, granularity.truncate? later = some laterStart ∧ start ≤ laterStart := by
  have order := Int64.le_iff_toInt_le.mp order
  have started : granularity.firstStart ≤ time.toInt := isSome_truncate?_iff.mp (by simp [truncated])
  obtain ⟨laterStart, reached⟩ :=
    Option.isSome_iff_exists.mp (isSome_truncate?_iff.mpr (started.trans order))
  obtain ⟨⟨aligned, notAfter⟩, -⟩ := isGreatest_of_truncate? truncated
  exact ⟨laterStart, reached, Int64.le_iff_toInt_le.mpr
    ((isGreatest_of_truncate? reached).2 ⟨aligned, notAfter.trans order⟩)⟩

/-- Each time is rounded down to the start of its bucket if it is not before the first multiple of the width
in the range, and there is no start for an earlier time. -/
theorem truncate?_floors_iff (granularity : Granularity) :
    ∃ first, IsLeast {n | granularity.seconds ∣ n ∧ Words.fitsInt64 n} first ∧ ∀ time : Int64,
      ((granularity.truncate? time).isSome ↔ first ≤ time.toInt) ∧
      ∀ start, granularity.truncate? time = some start →
        IsGreatest {n | granularity.seconds ∣ n ∧ n ≤ time.toInt} start.toInt ∧
        (start.toInt ≤ time.toInt ∧ time.toInt < start.toInt + granularity.seconds) ∧
        granularity.truncate? start = some start ∧
        ∀ later, time ≤ later →
          ∃ laterStart, granularity.truncate? later = some laterStart ∧ start ≤ laterStart := by
  refine ⟨_, granularity.isLeast_firstStart, fun time => ⟨isSome_truncate?_iff, ?_⟩⟩
  intro start truncated
  have greatest := isGreatest_of_truncate? truncated
  exact ⟨greatest, ⟨greatest.1.2, lt_add_of_truncate? truncated⟩, truncate?_truncate? truncated,
    fun _ => exists_truncate?_of_le truncated⟩

/-- The first time of the range is in an hour that begins before the range. -/
theorem truncate?_of_first_time :
    hour.truncate? Int64.minValue = none ∧
      IsGreatest {n : Int | hour.seconds ∣ n ∧ n ≤ Int64.minValue.toInt} (-9223372036854777600) := by
  refine ⟨by decide, ⟨by decide, ?_⟩⟩
  rintro n ⟨aligned, notAfter⟩
  rw [Int64.toInt_minValue] at notAfter
  have aligned : (3600 : Int) ∣ n := aligned
  omega

/-! ## Hours -/

/-- The start of an hour lies in the bucket in which the hour lies. -/
theorem truncate?_hour_bind (granularity : Granularity) (time : Int64) :
    (hour.truncate? time).bind granularity.truncate? = granularity.truncate? time := by
  have nested : time.toInt / hour.seconds * hour.seconds / granularity.seconds =
      time.toInt / granularity.seconds := by
    cases granularity <;> simp only [seconds] <;> omega
  cases truncated : hour.truncate? time with
  | some start =>
      rw [Option.bind_some, truncate?, ← truncate?_eq_some_iff.mp truncated, nested, truncate?]
  | none =>
      -- no bucket starts later than its hours
      have early : time.toInt < hour.firstStart :=
        Int.not_le.mp fun started => by simp [← isSome_truncate?_iff, truncated] at started
      have order : hour.firstStart ≤ granularity.firstStart := by cases granularity <;> decide
      have none_later : ¬(granularity.truncate? time).isSome := fun there =>
        (early.trans_le order).not_ge (isSome_truncate?_iff.mp there)
      rw [Option.bind_none, Option.not_isSome_iff_eq_none.mp none_later]

end UsageBoard.Usage.Granularity
