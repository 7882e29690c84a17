import Mathlib.Data.List.Dedup
import UsageBoard.Proofs.Usage.Reordering
import UsageBoard.Proofs.Usage.Truncation

/-!
# Hours that were added up

The backend adds usage up by model and hour before it lists it.  Days and weeks are made of whole hours,
so a dashboard shows the same buckets, models and sums for the rows that were added up as for those
that were not.

## Main statements

* `AddsUpHours.sum_eq`: rows that were added up have the sums of the records that they hold.
* `Dashboard.agrees_of_hours`: what the two dashboards have in common.
-/

namespace UsageBoard.Usage

open UsageBoard.Palette (Session)

/-! ## Rows that were added up -/

namespace UsageRecord

/-- The model and the time of a record. -/
def cell (r : UsageRecord) : String × Option Int64 := (r.modelName, some r.createdAt)

/-- The model of a record and the start of its hour, if that is in the range of times. -/
def hourCell (r : UsageRecord) : String × Option Int64 :=
  (r.modelName, Granularity.hour.truncate? r.createdAt)

/-- The records of a model in an hour. -/
def within (records : List UsageRecord) (cell : String × Option Int64) : List UsageRecord :=
  records.filter fun r => r.hourCell = cell

end UsageRecord

open UsageRecord (cell hourCell within)

/-- One row for each model and hour with records, at the start of the hour, with the sums of these
records.  The quotas may be added in any order. -/
structure AddsUpHours (records hours : List UsageRecord) : Prop where
  nodup : (hours.map cell).Nodup
  mem_iff : ∀ place, place ∈ hours.map cell ↔ place ∈ records.map hourCell
  count : ∀ row ∈ hours, row.count.toInt = ((within records row.cell).map fun r => r.count.toInt).sum
  tokens : ∀ row ∈ hours,
    row.tokenUsed.toInt = ((within records row.cell).map fun r => r.tokenUsed.toInt).sum
  quota : ∀ row ∈ hours, ∃ parts : List UsageRecord, parts.Perm (within records row.cell) ∧
    row.quota = parts.foldl (fun sum r => sum + r.quota) 0.0

/-- The row of a model and an hour, if the hour begins in the range of times. -/
def hourRow? (records : List UsageRecord) (place : String × Option Int64) : Option UsageRecord :=
  place.2.map fun start =>
    ⟨none, none, none, place.1, start,
      (within records place).foldl (fun sum r => Saturating.add sum r.count) 0,
      (within records place).foldl (fun sum r => sum + r.quota) 0.0,
      (within records place).foldl (fun sum r => Saturating.add sum r.tokenUsed) 0⟩

/-- The rows of some records, each model and hour where it appears last. -/
def hoursOf (records : List UsageRecord) : List UsageRecord :=
  (records.map hourCell).dedup.filterMap (hourRow? records)

section

variable {records : List UsageRecord} (f : UsageRecord → Int64)

theorem small_within (small : (records.map fun r => (f r).toInt.natAbs).sum < Words.int64End)
    (place : String × Option Int64) :
    ((within records place).map fun r => (f r).toInt.natAbs).sum < Words.int64End :=
  ((List.filter_sublist.map _).sum_le_sum (by simp)).trans_lt small

theorem toInt_foldl_within (small : (records.map fun r => (f r).toInt.natAbs).sum < Words.int64End)
    (place : String × Option Int64) :
    ((within records place).foldl (fun sum r => Saturating.add sum (f r)) 0).toInt =
      ((within records place).map fun r => (f r).toInt).sum := by
  rw [Saturating.toInt_foldl_add f _ 0 (by simpa using small_within f small place)]
  simp

end

theorem addsUpHours_hoursOf {records : List UsageRecord}
    (hourly : ∀ r ∈ records, (Granularity.hour.truncate? r.createdAt).isSome)
    (calls : (records.map fun r => r.count.toInt.natAbs).sum < Words.int64End)
    (tokens : (records.map fun r => r.tokenUsed.toInt.natAbs).sum < Words.int64End) :
    AddsUpHours records (hoursOf records) := by
  have cells : (hoursOf records).map cell = (records.map hourCell).dedup := by
    rw [hoursOf, List.map_filterMap]
    refine (List.filterMap_congr ?_).trans List.filterMap_some
    intro place there
    obtain ⟨r, hr, rfl⟩ := List.mem_map.mp (List.mem_dedup.mp there)
    obtain ⟨start, hstart⟩ := Option.isSome_iff_exists.mp (hourly r hr)
    simp [hourRow?, hourCell, cell, hstart]
  have rows : ∀ row ∈ hoursOf records, hourRow? records row.cell = some row := by
    intro row there
    obtain ⟨⟨model, hour⟩, -, hrow⟩ := List.mem_filterMap.mp there
    obtain ⟨start, rfl, rfl⟩ := Option.map_eq_some_iff.mp hrow
    rfl
  constructor
  · rw [cells]
    exact List.nodup_dedup _
  · intro place
    rw [cells, List.mem_dedup]
  · intro row there
    rw [← toInt_foldl_within UsageRecord.count calls]
    exact congrArg (fun row => row.count.toInt) (Option.some.inj (rows row there)).symm
  · intro row there
    rw [← toInt_foldl_within UsageRecord.tokenUsed tokens]
    exact congrArg (fun row => row.tokenUsed.toInt) (Option.some.inj (rows row there)).symm
  · intro row there
    exact ⟨within records row.cell, List.Perm.refl _,
      congrArg UsageRecord.quota (Option.some.inj (rows row there)).symm⟩

namespace AddsUpHours

variable {records hours : List UsageRecord} (h : AddsUpHours records hours)

include h

/-- What each row has of its records, all rows of some models have of theirs. -/
theorem sum_eq {f : UsageRecord → Int}
    (added : ∀ row ∈ hours, f row = ((within records row.cell).map f).sum) (test : String → Bool) :
    ((hours.filter fun r => test r.modelName).map f).sum =
      ((records.filter fun r => test r.modelName).map f).sum := by
  have distinct : ((hours.filter fun r => test r.modelName).map cell).Nodup :=
    h.nodup.sublist (List.filter_sublist.map _)
  have known : ∀ r ∈ records.filter fun r => test r.modelName,
      r.hourCell ∈ (hours.filter fun r => test r.modelName).map cell := by
    intro r hr
    obtain ⟨hr, htest⟩ := List.mem_filter.mp hr
    obtain ⟨row, hrow, hcell⟩ := List.mem_map.mp ((h.mem_iff _).mpr (List.mem_map_of_mem hr))
    have hname : row.modelName = r.modelName := congrArg Prod.fst hcell
    exact List.mem_map.mpr ⟨row, List.mem_filter.mpr ⟨hrow, hname ▸ htest⟩, hcell⟩
  rw [← sum_map_sum_filter hourCell f distinct _ known, List.map_map]
  refine congrArg List.sum (List.map_congr_left ?_)
  intro row hrow
  obtain ⟨hrow, htest⟩ := List.mem_filter.mp hrow
  have whole : (records.filter fun r => test r.modelName).filter (fun r => r.hourCell = row.cell) =
      within records row.cell := by
    rw [List.filter_filter]
    refine List.filter_congr ?_
    intro r _
    by_cases hcell : r.hourCell = row.cell
    · have hname : r.modelName = row.modelName := congrArg Prod.fst hcell
      simp [hcell, hname, htest]
    · simp [hcell]
  rw [added row hrow, Function.comp_apply, whole]

theorem sum_all_eq {f : UsageRecord → Int}
    (added : ∀ row ∈ hours, f row = ((within records row.cell).map f).sum) :
    (hours.map f).sum = (records.map f).sum := by
  simpa using h.sum_eq added fun _ => true

/-- The rows are no greater than what they were added up from. -/
theorem natAbs_sum_le {f : UsageRecord → Int}
    (added : ∀ row ∈ hours, f row = ((within records row.cell).map f).sum) :
    (hours.map fun r => (f r).natAbs).sum ≤ (records.map fun r => (f r).natAbs).sum := by
  have known : ∀ r ∈ records, r.hourCell ∈ hours.map cell := fun r hr =>
    (h.mem_iff _).mpr (List.mem_map_of_mem hr)
  rw [← sum_map_sum_filter hourCell (fun r => (f r).natAbs) h.nodup records known, List.map_map]
  refine List.sum_le_sum ?_
  intro row hrow
  have bound := List.le_sum_of_subadditive Int.natAbs (by simp) Int.natAbs_add_le
    ((within records row.cell).map f)
  rw [List.map_map] at bound
  rw [added row hrow]
  exact bound

theorem models_iff (model : String) :
    model ∈ records.map UsageRecord.modelName ↔ model ∈ hours.map UsageRecord.modelName := by
  have names : ∀ rows : List UsageRecord, rows.map UsageRecord.modelName = (rows.map cell).map Prod.fst ∧
      rows.map UsageRecord.modelName = (rows.map hourCell).map Prod.fst := fun rows => by
    simp [cell, hourCell]
  rw [(names records).2, (names hours).1]
  simp only [List.mem_map (f := Prod.fst), h.mem_iff]

/-- The records have the same buckets as the hours. -/
theorem buckets_iff {a : Aggregation} (bucket : Option Int64) :
    (∃ r ∈ records, a.bucket? r = bucket) ↔ ∃ r ∈ hours, a.bucket? r = bucket := by
  have starts : records.map a.bucket? =
      (records.map hourCell).map fun place => place.2.bind a.granularity.truncate? := by
    rw [List.map_map]
    exact List.map_congr_left fun r _ => (a.granularity.truncate?_hour_bind r.createdAt).symm
  have rows : hours.map a.bucket? = (hours.map cell).map fun place => place.2.bind a.granularity.truncate? := by
    rw [List.map_map]
    rfl
  rw [← List.mem_map, ← List.mem_map, starts, rows]
  simp only [List.mem_map (f := fun place : String × Option Int64 => place.2.bind a.granularity.truncate?),
    h.mem_iff]

theorem bucketed {a : Aggregation} (all : ∀ r ∈ records, (a.bucket? r).isSome) :
    ∀ r ∈ hours, (a.bucket? r).isSome := by
  intro r hr
  rw [← Option.ne_none_iff_isSome]
  intro hnone
  obtain ⟨s, hs, hnone⟩ := (h.buckets_iff none).mpr ⟨r, hr, hnone⟩
  simpa [hnone] using all s hs

variable {rows others : List UsageRecord} (perm : rows.Perm records) (perm' : others.Perm hours)

include perm perm'

/-- The running sums are the same, in whatever orders the records and the rows come. -/
theorem foldl_add_eq {f : UsageRecord → Int64}
    (added : ∀ row ∈ hours, (f row).toInt = ((within records row.cell).map fun r => (f r).toInt).sum)
    (small : (records.map fun r => (f r).toInt.natAbs).sum < Words.int64End) :
    others.foldl (fun sum r => Saturating.add sum (f r)) 0 =
      rows.foldl (fun sum r => Saturating.add sum (f r)) 0 := by
  refine foldl_add_eq_of_sum_eq f ?_ ?_ ?_
  · rw [(perm'.map _).sum_eq, (perm.map _).sum_eq, h.sum_all_eq added]
  · rw [(perm'.map _).sum_eq]
    exact (h.natAbs_sum_le added).trans_lt small
  · rwa [(perm.map _).sum_eq]

theorem callsOf_eq (small : (records.map fun r => r.count.toInt.natAbs).sum < Words.int64End)
    (model : String) : callsOf others model = callsOf rows model := by
  have hours_small := (h.natAbs_sum_le h.count).trans_lt small
  have same : exactCalls hours model = exactCalls records model :=
    h.sum_eq h.count fun name => decide (name = model)
  refine Int64.toInt_inj.mp ?_
  rw [toInt_callsOf (by rwa [(perm'.map _).sum_eq]), toInt_callsOf (by rwa [(perm.map _).sum_eq]),
    exactCalls_perm perm', exactCalls_perm perm, same]

end AddsUpHours

/-! ## The two dashboards -/

theorem Aggregation.Crosses.pairwise_time {a : Aggregation} {rows : List UsageRecord}
    {models : List String} {times : Finset Int64} {keys : List (Int64 × String)}
    {series : List Consumption} (h : a.Crosses rows models times keys series) :
    (series.map Consumption.time).Pairwise (· ≤ ·) := by
  rw [h.rows_eq, List.map_map, List.pairwise_map]
  refine h.ordered.imp ?_
  rintro p q (hlt | ⟨heq, -⟩)
  · exact String.not_lt.mp (String.lt_asymm hlt)
  · show a.labelOf p.1 ≤ a.labelOf q.1
    exact heq ▸ String.le_refl _

theorem Aggregation.ordered_perm_self (a : Aggregation) {records : List UsageRecord}
    (some_record : records ≠ []) : (a.ordered records).Perm records := by
  have byTime := (a.isByTime_ordered records).perm
  rwa [present, if_neg some_record] at byTime

namespace Dashboard

/-- A dashboard of rows that were added up by hour has the same labels, models, calls, sums and colours
as one of the records that the rows hold.  There is one for the rows if there is one for the records. -/
theorem agrees_of_hours (a : Aggregation) (session later : Session) (records hours : List UsageRecord)
    (dashboard : Dashboard) (some_record : records ≠ [])
    (calls : (records.map fun r => r.count.toInt.natAbs).sum < Words.int64End)
    (tokens : (records.map fun r => r.tokenUsed.toInt.natAbs).sum < Words.int64End)
    (merged : AddsUpHours records hours)
    (built : build? a session records = some (dashboard, later)) :
    (∀ time : Int64,
      (Granularity.hour.truncate? time).bind a.granularity.truncate? = a.granularity.truncate? time) ∧
    ∃ shown last, build? a session hours = some (shown, last) ∧
      shown.consumption.map Consumption.time = dashboard.consumption.map Consumption.time ∧
      shown.callCounts.Perm dashboard.callCounts ∧
      shown.totals.requests = dashboard.totals.requests ∧
      shown.totals.tokens = dashboard.totals.tokens ∧ shown.modelColors = dashboard.modelColors := by
  refine ⟨a.granularity.truncate?_hour_bind, ?_⟩
  have some_row : hours ≠ [] := by
    rintro rfl
    obtain ⟨r, hr⟩ := List.exists_mem_of_ne_nil records some_record
    exact absurd ((merged.mem_iff _).mpr (List.mem_map_of_mem hr)) List.not_mem_nil
  have rows := a.ordered_perm_self some_record
  have others := a.ordered_perm_self some_row
  obtain ⟨tally, known, told⟩ := exists_tally_of_build? built
  have bucketed : ∀ r ∈ a.ordered hours, (a.bucket? r).isSome := fun r hr =>
    merged.bucketed (fun s hs => known.bucketed s (rows.mem_iff.mpr hs)) r (others.mem_iff.mp hr)
  obtain ⟨counted, taken⟩ := Option.isSome_iff_exists.mp (Tally.isSome_ofRecords?_iff.mpr bucketed)
  have found := Tally.describes_ofRecords? taken
  have names : ∀ m, m ∈ (a.ordered hours).map UsageRecord.modelName ↔
      m ∈ (a.ordered records).map UsageRecord.modelName := fun m => by
    rw [(others.map _).mem_iff, (rows.map _).mem_iff, merged.models_iff]
  have buckets := found.buckets_eq_of_mem_iff known fun t => by
    simp only [others.mem_iff, rows.mem_iff, merged.buckets_iff]
  have models := found.models_perm_of_mem_iff known names
  -- labels depend on the buckets alone, so there is a dashboard for the rows
  have labelled : (ofTally? a session counted).isSome := by
    rw [isSome_ofTally?_iff, buckets, ← Aggregation.isSome_consumption?_iff, told.consumption,
      Option.isSome_some]
  obtain ⟨⟨shown, last⟩, retold⟩ := Option.isSome_iff_exists.mp labelled
  have rebuilt : build? a session hours = some (shown, last) := by
    rw [build?, taken, Option.bind_some, retold]
  have retold := shows_of_ofTally? retold
  refine ⟨shown, last, rebuilt, ?_, ?_, ?_, ?_, ?_⟩
  · obtain ⟨starts, latest, -, -, hlast, -⟩ := known.exists_starts_present
    have crossing := a.crosses_of_consumption? known hlast told.consumption
    have crossed := a.crosses_of_consumption? found (buckets ▸ hlast) retold.consumption
    rw [buckets] at crossed
    have perm := (crossed.places_perm crossing models).map Prod.fst
    rw [List.map_map, List.map_map] at perm
    refine perm.eq_of_pairwise ?_ crossed.pairwise_time crossing.pairwise_time
    exact fun _ _ _ _ => String.le_antisymm
  · exact (callCounts_of_build? rebuilt).perm_of_calls (callCounts_of_build? built) names
      (merged.callsOf_eq rows others calls)
  · rw [totals_of_build? built, totals_of_build? rebuilt]
    exact merged.foldl_add_eq rows others merged.count calls
  · rw [totals_of_build? built, totals_of_build? rebuilt]
    exact merged.foldl_add_eq rows others merged.tokens tokens
  · rw [told.modelColors_eq, retold.modelColors_eq]
    exact shades_perm (Session.Agrees.refl session) models

/-- Three records in two hours of two days, the latest first; those of one model and hour make one row. -/
theorem agrees_of_hours_of_three_records :
    let a : Aggregation := ⟨.day, 0, 0⟩
    let records : List UsageRecord :=
      [⟨none, none, none, "gpt-4", 7300, 2, 0.5, 9⟩, ⟨none, none, none, "gpt-4", 7201, 1, 1.0, 8⟩,
        ⟨none, none, none, "a", -1, 4, 2.0, 7⟩]
    let hours := hoursOf records
    (hours.map fun r => (r.cell, r.count, r.tokenUsed)) =
        [(("gpt-4", some 7200), 3, 17), (("a", some (-3600)), 4, 7)] ∧
      AddsUpHours records hours ∧
      ∃ dashboard later shown last,
        build? a Session.empty records = some (dashboard, later) ∧
          build? a Session.empty hours = some (shown, last) ∧
          shown.consumption.map Consumption.time = dashboard.consumption.map Consumption.time ∧
          shown.callCounts.Perm dashboard.callCounts ∧
          shown.totals.requests = dashboard.totals.requests ∧
          shown.totals.tokens = dashboard.totals.tokens ∧
          shown.modelColors = dashboard.modelColors := by
  intro a records hours
  have merged : AddsUpHours records hours := addsUpHours_hoursOf (by decide) (by decide) (by decide)
  obtain ⟨dashboard, later, built⟩ := exists_build? a Session.empty records (by decide) (by decide)
  obtain ⟨-, shown, last, rebuilt, same⟩ := agrees_of_hours a Session.empty later records hours dashboard
    (by decide) (by decide) (by decide) merged built
  exact ⟨by decide, merged, dashboard, later, shown, last, built, rebuilt, same⟩

end Dashboard

end UsageBoard.Usage
