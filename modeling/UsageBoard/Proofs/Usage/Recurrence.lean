import Mathlib
import UsageBoard.Proofs.Usage.Chronology

/-!
# Labels that come again

The label of a bucket leaves out the year, so the buckets of two years may have one label.  Otherwise
different buckets have different labels, and a series has one row for each label and model.

## Main statements

* `label_eq_iff`: two buckets have one label just if they show the same date of two years.
* `LooksLike.apart`: such buckets are at least 365 days apart.
* `charts_each_segment_once_iff`: when two rows of a series have one label and one model.
-/

namespace UsageBoard

/-! ## Dates as text -/

namespace Calendar

/-- Whether two points in time have one month and one day of the month, of whichever years. -/
structure SameMonthDay (second other : Int) : Prop where
  month : (Date.ofDay (second / daySeconds)).month = (Date.ofDay (other / daySeconds)).month
  day : (Date.ofDay (second / daySeconds)).day = (Date.ofDay (other / daySeconds)).day

instance (second other : Int) : Decidable (SameMonthDay second other) :=
  decidable_of_iff (_ ∧ _) ⟨fun h => ⟨h.1, h.2⟩, fun h => ⟨h.month, h.day⟩⟩

theorem twoDigits_append_inj {m n : Nat} (hm : m < 100) (hn : n < 100) {s t : String} :
    twoDigits m ++ s = twoDigits n ++ t ↔ m = n ∧ s = t := by
  constructor
  · intro same
    rcases Nat.lt_trichotomy m n with lt | rfl | lt
    · exact absurd same (String.ne_of_lt (twoDigits_append_lt lt hn s t))
    · exact ⟨rfl, (String.append_right_inj _).mp same⟩
    · exact absurd same.symm (String.ne_of_lt (twoDigits_append_lt lt hm t s))
  · rintro ⟨rfl, rfl⟩
    rfl

theorem monthDay_append_inj {second other : Int} {s t : String} :
    monthDay second ++ s = monthDay other ++ t ↔ SameMonthDay second other ∧ s = t := by
  have ⟨month, day⟩ := Date.ofDay_bounds (second / daySeconds)
  have ⟨otherMonth, otherDay⟩ := Date.ofDay_bounds (other / daySeconds)
  simp only [Set.mem_Icc] at month day otherMonth otherDay
  simp only [monthDay, String.append_assoc]
  rw [twoDigits_append_inj (by omega) (by omega), String.append_right_inj,
    twoDigits_append_inj (by omega) (by omega)]
  constructor
  · rintro ⟨months, days, rest⟩
    exact ⟨⟨months, days⟩, rest⟩
  · rintro ⟨⟨months, days⟩, rest⟩
    exact ⟨months, days, rest⟩

theorem monthDay_inj {second other : Int} : monthDay second = monthDay other ↔ SameMonthDay second other := by
  have h := @monthDay_append_inj second other "" ""
  rwa [String.append_empty, String.append_empty, and_iff_left rfl] at h

/-- A date has digits in front and a dash after them, which no number has. -/
theorem monthDay_append_ne_toString (second : Int) (s : String) (n : Int) :
    monthDay second ++ s ≠ toString n := by
  intro same
  have month := (Date.ofDay_bounds (second / daySeconds)).1
  have chars := congrArg String.toList same
  simp only [monthDay, String.toList_append, toList_twoDigits (month.2.trans_lt (by decide)),
    List.cons_append] at chars
  cases n with
  | ofNat k =>
      have digits : ∀ c ∈ (toString (Int.ofNat k)).toList, c.isDigit := by
        have written : (toString (Int.ofNat k)).toList = Nat.toDigits 10 k := Nat.toList_repr
        rw [written]
        exact fun c => Nat.isDigit_of_mem_toDigits (by decide) (by decide)
      have dash := digits '-' (chars ▸ by simp)
      exact absurd dash (by decide)
  | negSucc k =>
      have written : (toString (Int.negSucc k)).toList = '-' :: (k + 1).repr.toList :=
        String.toList_append
      rw [written] at chars
      have first := (List.cons.inj chars).1
      have digit : ∀ n < 10, Nat.digitChar n ≠ '-' := by decide
      exact digit _ (by have := month.2; omega) first

end Calendar

namespace Usage

variable {granularity : Granularity} {offset : Int} {t other : Int64}

/-- Two buckets that show the same in their labels: the same month and day of some years, the same hour
of it for an hour, and the same last day for a week. -/
structure LooksLike (granularity : Granularity) (offset : Int) (t other : Int64) : Prop where
  dated : IsDated granularity t
  otherDated : IsDated granularity other
  start : Calendar.SameMonthDay (t.toInt + offset) (other.toInt + offset)
  hour : granularity = .hour → Calendar.hour (t.toInt + offset) = Calendar.hour (other.toInt + offset)
  weekEnd : granularity = .week →
    Calendar.SameMonthDay (t.toInt + weekSpan + offset) (other.toInt + weekSpan + offset)

theorem LooksLike.self (dated : IsDated granularity t) (offset : Int) : LooksLike granularity offset t t :=
  ⟨dated, dated, ⟨rfl, rfl⟩, fun _ => rfl, fun _ => ⟨rfl, rfl⟩⟩

theorem LooksLike.symm (same : LooksLike granularity offset t other) : LooksLike granularity offset other t where
  dated := same.otherDated
  otherDated := same.dated
  start := ⟨same.start.month.symm, same.start.day.symm⟩
  hour granular := (same.hour granular).symm
  weekEnd granular := ⟨(same.weekEnd granular).month.symm, (same.weekEnd granular).day.symm⟩

theorem isDated_of_bucketLabel? (dated : Calendar.representable t.toInt) {label : String}
    (labelled : bucketLabel? t granularity offset = some label) : IsDated granularity t := by
  refine ⟨dated, ?_⟩
  rintro rfl
  have stays : ¬(Granularity.week = .week ∧ LeavesCalendar t) := fun leaves => by
    rw [(bucketLabel?_eq_none_iff t .week offset).mpr leaves] at labelled
    contradiction
  rw [leavesCalendar_iff] at stays
  simpa [dated] using stays

theorem label_eq_iff_of_dated (dated : IsDated granularity t) (otherDated : IsDated granularity other) :
    bucketLabel? t granularity offset = bucketLabel? other granularity offset ↔
      LooksLike granularity offset t other := by
  rw [bucketLabel?_of_isDated dated, bucketLabel?_of_isDated otherDated, Option.some.injEq]
  cases granularity with
  | hour =>
      simp only [String.append_assoc]
      rw [Calendar.monthDay_append_inj, String.append_right_inj, Calendar.twoDigits_append_inj
        ((Calendar.hour_lt _).trans (by decide)) ((Calendar.hour_lt _).trans (by decide))]
      constructor
      · rintro ⟨start, hour, -⟩
        exact ⟨dated, otherDated, start, fun _ => hour, nofun⟩
      · intro same
        exact ⟨same.start, same.hour rfl, rfl⟩
  | day =>
      rw [Calendar.monthDay_inj]
      constructor
      · intro start
        exact ⟨dated, otherDated, start, nofun, nofun⟩
      · exact LooksLike.start
  | week =>
      simp only [String.append_assoc]
      rw [Calendar.monthDay_append_inj, String.append_right_inj, Calendar.monthDay_inj]
      constructor
      · rintro ⟨start, weekEnd⟩
        exact ⟨dated, otherDated, start, nofun, fun _ => weekEnd⟩
      · intro same
        exact ⟨same.start, same.weekEnd rfl⟩

theorem bucketLabel?_eq_append (dated : IsDated granularity t) (offset : Int) :
    ∃ s, bucketLabel? t granularity offset = some (Calendar.monthDay (t.toInt + offset) ++ s) := by
  rw [bucketLabel?_of_isDated dated]
  cases granularity with
  | hour => exact ⟨_, congrArg some (by simp only [String.append_assoc]; rfl)⟩
  | day => exact ⟨"", congrArg some String.append_empty.symm⟩
  | week => exact ⟨_, congrArg some String.append_assoc⟩

theorem label_ne_of_no_date (dated : IsDated granularity t)
    (undated : Calendar.representable other.toInt = false) :
    bucketLabel? t granularity offset ≠ bucketLabel? other granularity offset := by
  obtain ⟨s, hs⟩ := bucketLabel?_eq_append dated offset
  rw [hs, bucketLabel?_of_no_date undated, ne_eq, Option.some.injEq]
  exact Calendar.monthDay_append_ne_toString _ s _

/-- Two buckets with labels have the same one just if they are the same or look alike. -/
theorem label_eq_iff {label otherLabel : String} (labelled : bucketLabel? t granularity offset = some label)
    (otherLabelled : bucketLabel? other granularity offset = some otherLabel) :
    label = otherLabel ↔ t = other ∨ LooksLike granularity offset t other := by
  rw [← Option.some.injEq, ← labelled, ← otherLabelled]
  cases ht : Calendar.representable t.toInt with
  | true =>
      have dated := isDated_of_bucketLabel? ht labelled
      cases hother : Calendar.representable other.toInt with
      | true =>
          rw [label_eq_iff_of_dated dated (isDated_of_bucketLabel? hother otherLabelled)]
          refine ⟨.inr, ?_⟩
          rintro (rfl | same)
          · exact .self dated offset
          · exact same
      | false =>
          refine iff_of_false (label_ne_of_no_date dated hother) ?_
          rintro (rfl | same)
          · simp [ht] at hother
          · simp [same.otherDated.start] at hother
  | false =>
      cases hother : Calendar.representable other.toInt with
      | true =>
          have otherDated := isDated_of_bucketLabel? hother otherLabelled
          refine iff_of_false (label_ne_of_no_date otherDated ht).symm ?_
          rintro (rfl | same)
          · simp [ht] at hother
          · simp [same.dated.start] at ht
      | false =>
          rw [bucketLabel?_of_no_date ht, bucketLabel?_of_no_date hother, Option.some.injEq]
          constructor
          · intro same
            exact .inl (Int64.toInt_inj.mp (Int.repr_inj.mp same))
          · rintro (rfl | same)
            · rfl
            · simp [same.dated.start] at ht

/-- Buckets that look alike start in different years, at the same time of the year. -/
theorem LooksLike.apart (same : LooksLike granularity offset t other) (aligned : granularity.seconds ∣ t.toInt)
    (otherAligned : granularity.seconds ∣ other.toInt) (earlier : t < other) :
    localYear offset t < localYear offset other ∧ t.toInt + 365 * Calendar.daySeconds ≤ other.toInt := by
  have days : (t.toInt + offset) / Calendar.daySeconds < (other.toInt + offset) / Calendar.daySeconds := by
    by_cases wide : granularity = .hour
    · -- two hours may be of one day, but then they are not of one hour
      subst wide
      refine lt_of_le_of_ne ?_ fun sameDay => ?_
      · exact Int.ediv_le_ediv (by decide) (Int.add_le_add_right (Int64.lt_iff_toInt_lt.mp earlier).le offset)
      · exact (hour_lt_of_dvd aligned otherAligned earlier sameDay).ne (same.hour rfl)
    · exact day_lt_of_dvd wide aligned otherAligned earlier
  obtain ⟨year, far⟩ := Calendar.Date.year_lt_of_sameMonthDay days same.start.month same.start.day
  refine ⟨year, ?_⟩
  have hour := same.hour
  unfold Calendar.hour at hour
  unfold Calendar.daySeconds at *
  cases granularity <;> simp only [Granularity.seconds] at aligned otherAligned
  case hour =>
    have hour := hour rfl
    omega
  all_goals omega

/-! ## Charted buckets -/

namespace Aggregation

variable {a : Aggregation} {observed times : Finset Int64} {latest : Int64} {rows : List UsageRecord}
  {models : List String} {keys : List (Int64 × String)} {series : List Consumption}

/-- No two different buckets look alike. -/
def AllDiffer (a : Aggregation) (times : Finset Int64) : Prop :=
  ∀ t ∈ times, ∀ other ∈ times, t < other → ¬LooksLike a.granularity a.offset t other

theorem Crosses.label_eq_iff (h : a.Crosses rows models times keys series) (ht : t ∈ times)
    (hother : other ∈ times) :
    a.labelOf t = a.labelOf other ↔ t = other ∨ LooksLike a.granularity a.offset t other :=
  Usage.label_eq_iff (h.labelled t ht) (h.labelled other hother)

theorem AllDiffer.not_looksLike (differ : a.AllDiffer times) (ht : t ∈ times) (hother : other ∈ times)
    (ne : t ≠ other) : ¬LooksLike a.granularity a.offset t other := by
  rcases Int64.le_total t other with le | ge
  · exact differ t ht other hother (Int64.lt_of_le_of_ne le ne)
  · exact fun same => differ other hother t ht (Int64.lt_of_le_of_ne ge ne.symm) same.symm

/-- A series has no two rows of one label and one model just if no two of its buckets look alike. -/
theorem Crosses.nodup_iff_allDiffer (h : a.Crosses rows models times keys series) (known : models ≠ []) :
    (series.map fun row => (row.time, row.model)).Nodup ↔ a.AllDiffer times := by
  rw [h.rows_eq, List.map_map, List.nodup_map_iff_inj_on h.nodup]
  constructor
  · intro distinct t ht other hother earlier same
    obtain ⟨model, hmodel⟩ := List.exists_mem_of_ne_nil models known
    have label : a.labelOf t = a.labelOf other := (h.label_eq_iff ht hother).mpr (.inr same)
    have equal := distinct (t, model) ((h.mem_iff _).mpr ⟨ht, hmodel⟩) (other, model)
      ((h.mem_iff _).mpr ⟨hother, hmodel⟩) (congrArg (·, model) label)
    obtain ⟨rfl, -⟩ := Prod.mk.inj equal
    exact Int64.lt_irrefl earlier
  · rintro differ ⟨t, model⟩ hkey ⟨other, otherModel⟩ hother same
    obtain ⟨label, rfl⟩ := Prod.mk.inj same
    have ht := ((h.mem_iff _).mp hkey).1
    have hother := ((h.mem_iff _).mp hother).1
    rcases (h.label_eq_iff ht hother).mp label with rfl | same
    · rfl
    · by_contra ne
      exact differ.not_looksLike ht hother (fun equal => ne (congrArg (·, model) equal)) same

/-- The buckets of a window are too close to each other to look alike. -/
theorem allDiffer_of_few (aligned : ∀ t ∈ observed, a.granularity.seconds ∣ t.toInt)
    (mem : latest ∈ observed) (few : observed.card < leastBuckets) :
    a.AllDiffer (a.charted observed latest) := by
  intro t ht other hother earlier same
  have far := (same.apart (dvd_of_dated aligned mem ht same.dated.start)
    (dvd_of_dated aligned mem hother same.otherDated.start) earlier).2
  rw [charted, if_neg (Nat.not_le.mpr few)] at ht hother
  obtain ⟨n, hn, rfl⟩ := Finset.mem_image.mp ht
  obtain ⟨m, -, rfl⟩ := Finset.mem_image.mp hother
  rw [toInt_clamp_of_representable same.dated.start, toInt_clamp_of_representable same.otherDated.start] at far
  have hn : n < 7 := Finset.mem_range.mp hn
  revert far
  unfold Calendar.daySeconds
  cases a.granularity <;> simp only [Granularity.seconds] <;> omega

end Aggregation

theorem Tally.Describes.models_ne_nil {a : Aggregation} {tally : Tally} {rows : List UsageRecord}
    (h : tally.Describes a rows) (some_row : rows ≠ []) : tally.models ≠ [] := by
  obtain ⟨r, hr⟩ := List.exists_mem_of_ne_nil rows some_row
  exact List.ne_nil_of_mem ((h.models.mem_iff _).mpr (List.mem_map_of_mem hr))

variable {a : Aggregation} {session later : Palette.Session} {records : List UsageRecord}
  {dashboard : Dashboard}

/-- The consumption of a dashboard crosses the charted buckets, which follow from those with records,
with some models. -/
theorem Dashboard.exists_crosses (built : Dashboard.build? a session records = some (dashboard, later)) :
    ∃ starts latest, a.buckets? (a.present records) = some starts ∧ IsGreatest {t | t ∈ starts} latest ∧
      ∃ rows models keys, models ≠ [] ∧
        a.Crosses rows models (a.charted starts.toFinset latest) keys dashboard.consumption := by
  obtain ⟨tally, known, shown⟩ := exists_tally_of_build? built
  obtain ⟨starts, latest, bucketed, greatest, last, hbuckets⟩ := known.exists_starts_present
  have crossing := a.crosses_of_consumption? known last shown.consumption
  rw [hbuckets] at crossing
  exact ⟨starts, latest, bucketed, greatest, _, _, _, known.models_ne_nil (a.ordered_ne_nil records), crossing⟩

/-- Two rows of a series have one label and one model just if two charted buckets look alike: they start
on the same date of different years.  So all rows differ if fewer than seven buckets have records, or if
all charted buckets are of one year. -/
theorem Dashboard.charts_each_segment_once_iff (a : Aggregation) (session later : Palette.Session)
    (records : List UsageRecord) (dashboard : Dashboard)
    (built : Dashboard.build? a session records = some (dashboard, later)) :
    ∃ starts latest, a.buckets? (a.present records) = some starts ∧ IsGreatest {t | t ∈ starts} latest ∧
      let observed := starts.toFinset
      let times := a.charted observed latest
      (∀ t ∈ times, ∀ other ∈ times,
        (bucketLabel? t a.granularity a.offset = bucketLabel? other a.granularity a.offset ↔
          t = other ∨ LooksLike a.granularity a.offset t other) ∧
        (t < other → LooksLike a.granularity a.offset t other →
          localYear a.offset t < localYear a.offset other ∧
            t.toInt + 365 * Calendar.daySeconds ≤ other.toInt)) ∧
      ((dashboard.consumption.map fun row => (row.time, row.model)).Nodup ↔ a.AllDiffer times) ∧
      (observed.card < leastBuckets →
        (dashboard.consumption.map fun row => (row.time, row.model)).Nodup) := by
  obtain ⟨starts, latest, bucketed, greatest, rows, models, keys, known, crossing⟩ := exists_crosses built
  refine ⟨starts, latest, bucketed, greatest, ?_⟩
  intro observed times
  have aligned := Aggregation.dvd_of_buckets? bucketed
  have mem : latest ∈ observed := List.mem_toFinset.mpr greatest.1
  have distinct := crossing.nodup_iff_allDiffer known
  refine ⟨fun t ht other hother => ⟨?_, fun earlier same => ?_⟩, distinct, fun few => ?_⟩
  · rw [crossing.labelled t ht, crossing.labelled other hother, Option.some.injEq]
    exact crossing.label_eq_iff ht hother
  · exact same.apart (Aggregation.dvd_of_dated aligned mem ht same.dated.start)
      (Aggregation.dvd_of_dated aligned mem hother same.otherDated.start) earlier
  · exact distinct.mpr (Aggregation.allDiffer_of_few aligned mem few)

/-- Two records on the first days of two years: one charted week, without the earlier record. -/
theorem Dashboard.charts_each_segment_once_of_gap :
    let a : Aggregation := ⟨.day, 0, 0⟩
    let records := [⟨none, none, none, "gpt-4", 1672531200, 1, 1.0, 1⟩,
      ⟨none, none, none, "gpt-4", 1704067200, 1, 2.0, 1⟩]
    ∃ dashboard later, Dashboard.build? a Palette.Session.empty records = some (dashboard, later) ∧
      (dashboard.consumption.map fun row => (row.time, row.model)).Nodup := by
  intro a records
  obtain ⟨dashboard, later, built⟩ :=
    Dashboard.exists_build? a Palette.Session.empty records (by decide) (by decide)
  obtain ⟨starts, latest, bucketed, -, -, -, distinct⟩ := charts_each_segment_once_iff _ _ _ _ _ built
  have two : a.buckets? records = some [1672531200, 1704067200] := by decide
  obtain rfl := Option.some.inj (two.symm.trans bucketed)
  exact ⟨dashboard, later, built, distinct (by decide)⟩

def newYears : List UsageRecord :=
  [1672531200, 1704067200, 1704153600, 1704240000, 1704326400, 1704412800, 1704499200].map fun time =>
    ⟨none, none, none, "gpt-4", time, 1, 1.0, 1⟩

/-- The first days of two years have one label, and both are charted if there are five days more. -/
theorem Dashboard.repeats_segment_of_newYears :
    bucketLabel? 1672531200 .day 0 = bucketLabel? 1704067200 .day 0 ∧
      ∃ dashboard later, Dashboard.build? ⟨.day, 0, 0⟩ Palette.Session.empty newYears =
          some (dashboard, later) ∧
        ¬(dashboard.consumption.map fun row => (row.time, row.model)).Nodup := by
  have same : LooksLike .day 0 1672531200 1704067200 :=
    ⟨⟨by decide, nofun⟩, ⟨by decide, nofun⟩, by decide, nofun, nofun⟩
  refine ⟨(label_eq_iff_of_dated same.dated same.otherDated).mpr same, ?_⟩
  obtain ⟨dashboard, later, built⟩ :=
    Dashboard.exists_build? ⟨.day, 0, 0⟩ Palette.Session.empty newYears (by decide) (by decide)
  refine ⟨dashboard, later, built, ?_⟩
  obtain ⟨starts, latest, bucketed, -, rows, models, keys, known, crossing⟩ := exists_crosses built
  rw [crossing.nodup_iff_allDiffer known]
  intro differ
  have days : Aggregation.buckets? ⟨.day, 0, 0⟩ newYears = some (newYears.map UsageRecord.createdAt) := by
    decide
  obtain rfl := Option.some.inj (days.symm.trans bucketed)
  have many : leastBuckets ≤ (newYears.map UsageRecord.createdAt).toFinset.card := by decide
  rw [Aggregation.charted, if_pos many] at differ
  exact differ 1672531200 (by decide) 1704067200 (by decide) (by decide) same

end Usage

end UsageBoard
