import UsageBoard.Proofs.Calendar
import UsageBoard.Proofs.Usage.Labels
import UsageBoard.Proofs.Usage.Window

/-!
# Labels in the order of time

The label of a bucket says when it starts, but not in which year.  The labels of buckets that start in
one year are in the order of time, in any time zone; so a series that is sorted by label is in that
order too.

## Main statements

* `Calendar.monthDay_append_lt`: what begins with an earlier date of the year comes first.
* `labelOf_lt`: a bucket has a smaller label than a later one of the same year.
* `charts_year_in_order`: the labels ascend, and so the rows of a series.
-/

namespace UsageBoard

/-! ## Dates as text -/

namespace Calendar

theorem representable_iff (second : Int) :
    representable second ↔ -8334601228800 ≤ second ∧ second ≤ 8210266876799 := by
  rw [representable, Bool.and_eq_true, decide_eq_true_iff, decide_eq_true_iff]
  rfl

theorem hour_lt (second : Int) : hour second < 24 := by
  unfold hour daySeconds
  omega

theorem toList_twoDigits {n : Nat} (small : n < 100) :
    (twoDigits n).toList = [Nat.digitChar (n / 10), Nat.digitChar (n % 10)] := by
  have all : ∀ n < 100, (twoDigits n).toList = [Nat.digitChar (n / 10), Nat.digitChar (n % 10)] := by
    decide +kernel
  exact all n small

theorem digitChar_lt {m n : Nat} (lt : m < n) (small : n < 10) : Nat.digitChar m < Nat.digitChar n := by
  have all : ∀ n < 10, ∀ m < n, Nat.digitChar m < Nat.digitChar n := by decide
  exact all n small m lt

theorem twoDigits_append_lt {m n : Nat} (lt : m < n) (small : n < 100) (s t : String) :
    twoDigits m ++ s < twoDigits n ++ t := by
  rw [String.lt_iff, String.toList_append, String.toList_append, toList_twoDigits small,
    toList_twoDigits (lt.trans small)]
  simp only [List.cons_append, List.cons_lt_cons_iff]
  rcases Nat.lt_or_eq_of_le (Nat.div_le_div_right (c := 10) lt.le) with tens | tens
  · exact .inl (digitChar_lt tens (by omega))
  · exact .inr ⟨by rw [tens], .inl (digitChar_lt (by omega) (by omega))⟩

theorem append_lt_append (s : String) {t u : String} (lt : t < u) : s ++ t < s ++ u := by
  rw [String.lt_iff] at lt ⊢
  rw [String.toList_append, String.toList_append]
  exact List.append_left_lt lt

theorem monthDay_append_lt {second later : Int} (earlier : second / daySeconds < later / daySeconds)
    (sameYear : (Date.ofDay (second / daySeconds)).year = (Date.ofDay (later / daySeconds)).year)
    (s t : String) : monthDay second ++ s < monthDay later ++ t := by
  have before := Date.ofDay_before earlier
  have ⟨months, days⟩ := Date.ofDay_bounds (later / daySeconds)
  simp only [monthDay, String.append_assoc]
  rcases before with year | ⟨-, month | ⟨month, day⟩⟩
  · exact absurd sameYear year.ne
  · exact twoDigits_append_lt month (months.2.trans_lt (by decide)) _ _
  · rw [month]
    exact append_lt_append _ (append_lt_append _ (twoDigits_append_lt day (days.2.trans_lt (by decide)) _ _))

end Calendar

namespace Usage

/-! ## Buckets with dates -/

/-- Whether the label of a bucket is made of dates. -/
structure IsDated (granularity : Granularity) (t : Int64) : Prop where
  start : Calendar.representable t.toInt
  weekEnd : granularity = .week → Calendar.representable (t.toInt + weekSpan)

/-- The year in which a bucket starts, in the time zone that is `offset` seconds east. -/
def localYear (offset : Int) (t : Int64) : Int :=
  (Calendar.Date.ofDay ((t.toInt + offset) / Calendar.daySeconds)).year

variable {granularity : Granularity} {t later : Int64}

theorem bucketLabel?_of_isDated (dated : IsDated granularity t) (offset : Int) :
    bucketLabel? t granularity offset =
      some (match granularity with
        | .hour => Calendar.monthDay (t.toInt + offset) ++ " " ++
            Calendar.twoDigits (Calendar.hour (t.toInt + offset)) ++ ":00"
        | .day => Calendar.monthDay (t.toInt + offset)
        | .week => Calendar.monthDay (t.toInt + offset) ++ " - " ++
            Calendar.monthDay (t.toInt + weekSpan + offset)) := by
  unfold bucketLabel?
  have start : ¬Calendar.representable t.toInt = false := by simp [dated.start]
  rw [if_neg start]
  cases granularity with
  | hour => rfl
  | day => rfl
  | week => exact if_pos (dated.weekEnd rfl)

/-- The local days on which two buckets start, one before the other. -/
theorem day_lt_of_dvd {offset : Int} (wide : granularity ≠ .hour) (aligned : granularity.seconds ∣ t.toInt)
    (laterAligned : granularity.seconds ∣ later.toInt) (earlier : t < later) :
    (t.toInt + offset) / Calendar.daySeconds < (later.toInt + offset) / Calendar.daySeconds := by
  have earlier := Int64.lt_iff_toInt_lt.mp earlier
  unfold Calendar.daySeconds
  cases granularity with
  | hour => exact absurd rfl wide
  | day => simp only [Granularity.seconds] at aligned laterAligned; omega
  | week => simp only [Granularity.seconds] at aligned laterAligned; omega

/-- Two hours of one local day. -/
theorem hour_lt_of_dvd {offset : Int} (aligned : Granularity.hour.seconds ∣ t.toInt)
    (laterAligned : Granularity.hour.seconds ∣ later.toInt) (earlier : t < later)
    (sameDay : (t.toInt + offset) / Calendar.daySeconds = (later.toInt + offset) / Calendar.daySeconds) :
    Calendar.hour (t.toInt + offset) < Calendar.hour (later.toInt + offset) := by
  have earlier := Int64.lt_iff_toInt_lt.mp earlier
  unfold Calendar.hour
  unfold Calendar.daySeconds at *
  simp only [Granularity.seconds] at aligned laterAligned
  omega

theorem label_lt {offset : Int} (dated : IsDated granularity t) (laterDated : IsDated granularity later)
    (aligned : granularity.seconds ∣ t.toInt) (laterAligned : granularity.seconds ∣ later.toInt)
    (earlier : t < later) (sameYear : localYear offset t = localYear offset later) :
    ∃ label laterLabel, bucketLabel? t granularity offset = some label ∧
      bucketLabel? later granularity offset = some laterLabel ∧ label < laterLabel := by
  refine ⟨_, _, bucketLabel?_of_isDated dated offset, bucketLabel?_of_isDated laterDated offset, ?_⟩
  have ofDay := @Calendar.monthDay_append_lt (t.toInt + offset) (later.toInt + offset)
  cases granularity with
  | hour =>
      have hle := Int64.lt_iff_toInt_lt.mp earlier
      rcases Int.lt_or_eq_of_le (Int.ediv_le_ediv (by decide : 0 < Calendar.daySeconds)
        (Int.add_le_add_right hle.le offset)) with day | day
      · simp only [String.append_assoc]
        exact ofDay day sameYear _ _
      · have hour := hour_lt_of_dvd aligned laterAligned earlier day
        have date : Calendar.monthDay (t.toInt + offset) = Calendar.monthDay (later.toInt + offset) := by
          simp only [Calendar.monthDay, day]
        simp only [date, String.append_assoc]
        refine Calendar.append_lt_append _ (Calendar.append_lt_append _ ?_)
        exact Calendar.twoDigits_append_lt hour ((Calendar.hour_lt _).trans (by decide)) _ _
  | day =>
      have h := ofDay (day_lt_of_dvd (by decide) aligned laterAligned earlier) sameYear "" ""
      rwa [String.append_empty, String.append_empty] at h
  | week =>
      simp only [String.append_assoc]
      exact ofDay (day_lt_of_dvd (by decide) aligned laterAligned earlier) sameYear _ _

/-! ## Charted buckets -/

namespace Aggregation

variable {a : Aggregation} {observed : Finset Int64} {latest : Int64}

/-- All charted buckets start in one year, and have dates. -/
structure InOneYear (a : Aggregation) (times : Finset Int64) : Prop where
  dated : ∀ t ∈ times, IsDated a.granularity t
  sameYear : ∀ t ∈ times, ∀ later ∈ times, localYear a.offset t = localYear a.offset later

/-- A date is far from the ends of the range, so no step of the window stopped there. -/
theorem toInt_clamp_of_representable {n : Int} (dated : Calendar.representable (Saturating.clamp n).toInt) :
    (Saturating.clamp n).toInt = n := by
  rw [Calendar.representable_iff, Saturating.toInt_clamp, Saturating.int64End_eq] at dated
  rw [Saturating.toInt_clamp, Saturating.int64End_eq]
  omega

/-- A charted bucket with a date is on the grid, if those with records are. -/
theorem dvd_of_dated (aligned : ∀ t ∈ observed, a.granularity.seconds ∣ t.toInt)
    (mem : latest ∈ observed) {t : Int64} (ht : t ∈ a.charted observed latest)
    (dated : Calendar.representable t.toInt) : a.granularity.seconds ∣ t.toInt := by
  by_cases few : observed.card < leastBuckets
  · rw [charted, if_neg (Nat.not_le.mpr few)] at ht
    obtain ⟨n, -, rfl⟩ := Finset.mem_image.mp ht
    rw [toInt_clamp_of_representable dated]
    exact Int.dvd_sub (aligned latest mem) (Int.dvd_mul_left _ _)
  · rw [charted, if_pos (Nat.not_lt.mp few)] at ht
    exact aligned t ht

theorem dvd_of_buckets? {rows : List UsageRecord} {starts : List Int64}
    (bucketed : a.buckets? rows = some starts) :
    ∀ t ∈ starts.toFinset, a.granularity.seconds ∣ t.toInt := by
  intro t ht
  obtain ⟨r, -, bucket⟩ := (mem_of_buckets? bucketed).mp (List.mem_toFinset.mp ht)
  exact Granularity.dvd_of_truncate? bucket

/-- The labels of the buckets of a year ascend. -/
theorem labelOf_lt {times : Finset Int64} (year : a.InOneYear times)
    (aligned : ∀ t ∈ times, a.granularity.seconds ∣ t.toInt) {t later : Int64} (ht : t ∈ times)
    (hlater : later ∈ times) (earlier : t < later) : a.labelOf t < a.labelOf later := by
  obtain ⟨label, laterLabel, hlabel, hlaterLabel, hlt⟩ :=
    label_lt (year.dated t ht) (year.dated later hlater) (aligned t ht) (aligned later hlater) earlier
      (year.sameYear t ht later hlater)
  rwa [labelOf, hlabel, labelOf, hlaterLabel]

/-- Whether the row of a bucket and a model comes before that of another in the order of time. -/
def PrecedesInTime (models : List String) (p q : Int64 × String) : Prop :=
  p.1 < q.1 ∨ p.1 = q.1 ∧ models.idxOf p.2 < models.idxOf q.2

variable {rows : List UsageRecord} {models : List String} {times : Finset Int64}
  {keys : List (Int64 × String)} {series : List Consumption}

theorem Crosses.pairwise_precedesInTime (h : a.Crosses rows models times keys series)
    (year : a.InOneYear times) (aligned : ∀ t ∈ times, a.granularity.seconds ∣ t.toInt) :
    keys.Pairwise (PrecedesInTime models) := by
  refine h.ordered.imp_of_mem ?_
  intro p q hp hq precedes
  have hp := ((h.mem_iff p).mp hp).1
  have hq := ((h.mem_iff q).mp hq).1
  rcases precedes with label | ⟨-, place⟩
  · left
    by_contra hle
    rcases Int64.lt_or_eq_of_le (Int64.not_lt.mp hle) with hlt | heq
    · exact String.lt_asymm label (labelOf_lt year aligned hq hp hlt)
    · rw [heq] at label
      exact String.lt_irrefl _ label
  · exact place

theorem Crosses.nodup_time_model (h : a.Crosses rows models times keys series)
    (year : a.InOneYear times) (aligned : ∀ t ∈ times, a.granularity.seconds ∣ t.toInt) :
    (series.map fun row => (row.time, row.model)).Nodup := by
  rw [h.rows_eq, List.map_map]
  refine List.pairwise_map.mpr ((h.pairwise_precedesInTime year aligned).imp_of_mem ?_)
  intro p q hp hq precedes same
  obtain ⟨label, model⟩ := Prod.mk.inj same
  rcases precedes with earlier | ⟨-, place⟩
  · have hlt := labelOf_lt year aligned ((h.mem_iff p).mp hp).1 ((h.mem_iff q).mp hq).1 earlier
    exact String.ne_of_lt hlt label
  · exact place.ne (congrArg models.idxOf model)

end Aggregation

/-- The labels of two buckets that start in one year of a time zone are in the order of the buckets.
So, if all charted buckets do, there is a dashboard, the rows of its consumption are in the order of the
buckets, and no two rows have one label and one model. -/
theorem Dashboard.charts_year_in_order :
    (∀ (granularity : Granularity) (offset : Int) (time laterTime t later : Int64),
      granularity.truncate? time = some t → granularity.truncate? laterTime = some later →
      IsDated granularity t → IsDated granularity later → t < later →
      localYear offset t = localYear offset later →
      ∃ label laterLabel, bucketLabel? t granularity offset = some label ∧
        bucketLabel? later granularity offset = some laterLabel ∧ label < laterLabel) ∧
    ∀ (a : Aggregation) (session : Palette.Session) (records : List UsageRecord) (starts : List Int64),
      a.buckets? (a.present records) = some starts →
      ∃ latest, IsGreatest {t | t ∈ starts} latest ∧
        (a.InOneYear (a.charted starts.toFinset latest) →
          ∃ dashboard later, Dashboard.build? a session records = some (dashboard, later) ∧
            ∃ (rows : List UsageRecord) (models : List String) (keys : List (Int64 × String)),
              IsByTime (a.present records) rows ∧
                IsFirstSeen (rows.map UsageRecord.modelName) models ∧
                a.Crosses rows models (a.charted starts.toFinset latest) keys dashboard.consumption ∧
                keys.Pairwise (Aggregation.PrecedesInTime models) ∧
                (dashboard.consumption.map fun row => (row.time, row.model)).Nodup) := by
  constructor
  · intro granularity offset time laterTime t later truncated laterTruncated dated laterDated
    exact label_lt dated laterDated (Granularity.dvd_of_truncate? truncated)
      (Granularity.dvd_of_truncate? laterTruncated)
  · intro a session records starts bucketed
    obtain ⟨tally, latest, taken, known, greatest, last, hbuckets⟩ := Aggregation.exists_tally bucketed
    refine ⟨latest, greatest, fun year => ?_⟩
    have hmem := a.mem_timeline known.sorted last
    rw [hbuckets] at hmem
    have labelled : (ofTally? a session tally).isSome := by
      rw [isSome_ofTally?_iff]
      intro t ht
      rw [bucketLabel?_of_isDated (year.dated t ((hmem t).mp ht))]
      rfl
    obtain ⟨⟨dashboard, later⟩, shown⟩ := Option.isSome_iff_exists.mp labelled
    have built : build? a session records = some (dashboard, later) := by
      rw [build?, taken, Option.bind_some, shown]
    have crossing := a.crosses_of_consumption? known last (shows_of_ofTally? shown).consumption
    rw [hbuckets] at crossing
    have aligned : ∀ t ∈ a.charted starts.toFinset latest, a.granularity.seconds ∣ t.toInt := fun t ht =>
      Aggregation.dvd_of_dated (Aggregation.dvd_of_buckets? bucketed)
        (List.mem_toFinset.mpr greatest.1) ht (year.dated t ht).start
    exact ⟨dashboard, later, built, a.ordered records, _, _, a.isByTime_ordered records, known.models,
      crossing, crossing.pairwise_precedesInTime year aligned, crossing.nodup_time_model year aligned⟩

/-- The last hours of a year in Greenwich, which are the first of the next in Shanghai. -/
theorem Dashboard.charts_year_in_order_of_new_year :
    let a : Aggregation := ⟨.hour, 28800, 0⟩
    let records := [⟨none, none, none, "b", 1704063605, 2, 0.5, 9⟩, ⟨none, none, none, "a", 1704056400, 1, 1.0, 8⟩]
    a.buckets? records = some [1704063600, 1704056400] ∧
      a.InOneYear (a.charted [1704063600, 1704056400].toFinset 1704063600) ∧
      ∃ dashboard later, Dashboard.build? a Palette.Session.empty records = some (dashboard, later) ∧
        (dashboard.consumption.map fun row => (row.time, row.model)).Nodup ∧
        bucketLabel? 1704056400 .hour 28800 = some "01-01 05:00" ∧
        bucketLabel? 1704063600 .hour 28800 = some "01-01 07:00" ∧
        "01-01 05:00" < "01-01 07:00" := by
  intro a records
  have bucketed : a.buckets? records = some [1704063600, 1704056400] := by decide
  have shown : ∀ t ∈ a.charted [1704063600, 1704056400].toFinset 1704063600,
      Calendar.representable t.toInt ∧ localYear 28800 t = 2024 := by
    have others : (a.charted [1704063600, 1704056400].toFinset 1704063600).filter
        (fun t => ¬(Calendar.representable t.toInt ∧ localYear 28800 t = 2024)) = ∅ := by decide +kernel
    exact fun t ht => not_not.mp (Finset.filter_eq_empty_iff.mp others ht)
  have year : a.InOneYear (a.charted [1704063600, 1704056400].toFinset 1704063600) :=
    ⟨fun t ht => ⟨(shown t ht).1, nofun⟩,
      fun t ht later hlater => (shown t ht).2.trans (shown later hlater).2.symm⟩
  obtain ⟨latest, greatest, charts⟩ :=
    charts_year_in_order.2 a Palette.Session.empty records [1704063600, 1704056400] bucketed
  obtain rfl : latest = 1704063600 := by
    have least := greatest.2 List.mem_cons_self
    rcases List.mem_cons.mp greatest.1 with first | second
    · exact first
    · rw [List.mem_singleton.mp second] at least
      exact absurd least (by decide)
  obtain ⟨dashboard, later, built, _, _, _, -, -, -, -, distinct⟩ := charts year
  obtain ⟨label, laterLabel, hlabel, hlaterLabel, lt⟩ :=
    charts_year_in_order.1 .hour 28800 1704056400 1704063605 1704056400 1704063600 (by decide) (by decide)
      ⟨by decide +kernel, nofun⟩ ⟨by decide +kernel, nofun⟩ (by decide) (by decide +kernel)
  have first : bucketLabel? 1704056400 .hour 28800 = some "01-01 05:00" := by decide +kernel
  have second : bucketLabel? 1704063600 .hour 28800 = some "01-01 07:00" := by decide +kernel
  obtain rfl := Option.some.inj (hlabel.symm.trans first)
  obtain rfl := Option.some.inj (hlaterLabel.symm.trans second)
  exact ⟨bucketed, year, dashboard, later, built, distinct, first, second, lt⟩

end Usage

end UsageBoard
