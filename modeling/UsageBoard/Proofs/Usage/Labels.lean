import UsageBoard.Proofs.Usage.Consumption
import UsageBoard.Proofs.Usage.Truncation

/-!
# Buckets without a label

A start without a date is its own label, but a week also names its last day, and the last week that
begins in the calendar ends after it.  Main statement: there is a dashboard for any records, unless one
of them is from before the first bucket in the range, or such a week is charted
(`builds_unless_bucket_leaves_range`).
-/

namespace UsageBoard.Usage

theorem bucketLabel?_of_no_date {t : Int64} (h : Calendar.representable t.toInt = false)
    (granularity : Granularity) (offset : Int) :
    bucketLabel? t granularity offset = some (toString t.toInt) := by
  simp [bucketLabel?, h]

/-- Whether a week begins in the calendar and ends after it. -/
def LeavesCalendar (t : Int64) : Prop :=
  Calendar.lastSecond - weekSpan < t.toInt ∧ t.toInt ≤ Calendar.lastSecond

instance (t : Int64) : Decidable (LeavesCalendar t) := instDecidableAnd

theorem leavesCalendar_iff (t : Int64) :
    LeavesCalendar t ↔ Calendar.representable t.toInt ∧
      Calendar.representable (t.toInt + weekSpan) = false := by
  simp only [LeavesCalendar, Calendar.representable, Bool.and_eq_true, decide_eq_true_eq,
    Bool.and_eq_false_iff, decide_eq_false_iff_not]
  simp only [Calendar.firstSecond, Calendar.lastSecond, weekSpan, Calendar.daySeconds]
  omega

theorem bucketLabel?_eq_none_iff (t : Int64) (granularity : Granularity) (offset : Int) :
    bucketLabel? t granularity offset = none ↔ granularity = .week ∧ LeavesCalendar t := by
  rw [leavesCalendar_iff]
  unfold bucketLabel?
  cases hstart : Calendar.representable t.toInt with
  | false => simp [hstart]
  | true =>
      cases granularity with
      | hour => simp [hstart]
      | day => simp [hstart]
      | week => cases hend : Calendar.representable (t.toInt + weekSpan) <;> simp [hstart, hend]

/-- There is a dashboard just if all records have buckets and all charted buckets have labels. -/
theorem Dashboard.build?_isSome_iff (a : Aggregation) (session : Palette.Session)
    (records : List UsageRecord) :
    (Dashboard.build? a session records).isSome ↔
      ∃ tally, Tally.ofRecords? a (a.ordered records) = some tally ∧
        ∀ t ∈ a.timeline tally.buckets, (bucketLabel? t a.granularity a.offset).isSome := by
  rw [build?]
  cases Tally.ofRecords? a (a.ordered records) with
  | none => simp
  | some tally => simpa using isSome_ofTally?_iff

theorem isSome_buckets?_iff_firstStart_le {a : Aggregation} {rows : List UsageRecord} :
    (a.buckets? rows).isSome ↔ ∀ r ∈ rows, a.granularity.firstStart ≤ r.createdAt.toInt := by
  simp only [isSome_buckets?_iff, Aggregation.bucket?, Granularity.isSome_truncate?_iff]

/-- Any records have a dashboard, unless one of them is from before the first bucket that starts in the
range of times, or they are charted by week and a charted week begins in the calendar and ends after it;
that is when a bucket has no start, and when it has no label. -/
theorem Dashboard.builds_unless_bucket_leaves_range (a : Aggregation) (session : Palette.Session)
    (records : List UsageRecord) :
    (∀ (t : Int64) (granularity : Granularity) (offset : Int),
      (bucketLabel? t granularity offset = none ↔ granularity = .week ∧ LeavesCalendar t) ∧
        (Calendar.representable t.toInt = false →
          bucketLabel? t granularity offset = some (toString t.toInt))) ∧
    ((a.buckets? (a.present records)).isSome ↔
      ∀ r ∈ a.present records, a.granularity.firstStart ≤ r.createdAt.toInt) ∧
    (a.buckets? (a.present records) = none → Dashboard.build? a session records = none) ∧
    ∀ starts, a.buckets? (a.present records) = some starts →
      ∃ latest, IsGreatest {t | t ∈ starts} latest ∧
        ((∃ dashboard later, Dashboard.build? a session records = some (dashboard, later)) ↔
          ¬(a.granularity = .week ∧ ∃ t ∈ a.charted starts.toFinset latest, LeavesCalendar t)) := by
  refine ⟨fun t granularity offset =>
    ⟨bucketLabel?_eq_none_iff t granularity offset, fun h => bucketLabel?_of_no_date h _ _⟩,
    isSome_buckets?_iff_firstStart_le, ?_, ?_⟩
  · intro hnone
    have untallied : ¬(Tally.ofRecords? a (a.ordered records)).isSome := by
      simp only [Tally.isSome_ofRecords?_iff, (a.isByTime_ordered records).perm.mem_iff]
      rw [← isSome_buckets?_iff, hnone]
      exact Bool.false_ne_true
    rw [build?, Option.not_isSome_iff_eq_none.mp untallied, Option.bind_none]
  · intro starts bucketed
    obtain ⟨tally, latest, taken, known, greatest, last, hbuckets⟩ := Aggregation.exists_tally bucketed
    refine ⟨latest, greatest, ?_⟩
    have hmem : ∀ t, t ∈ a.timeline tally.buckets ↔ t ∈ a.charted starts.toFinset latest := fun t => by
      rw [a.mem_timeline known.sorted last, hbuckets]
    have hbuilt : (∃ dashboard later, Dashboard.build? a session records = some (dashboard, later)) ↔
        ∀ t ∈ a.timeline tally.buckets, (bucketLabel? t a.granularity a.offset).isSome := by
      rw [← Prod.exists', ← Option.isSome_iff_exists, build?, taken, Option.bind_some, isSome_ofTally?_iff]
    rw [hbuilt]
    constructor
    · rintro labelled ⟨hweek, t, ht, hleaves⟩
      have hnone := (bucketLabel?_eq_none_iff t a.granularity a.offset).mpr ⟨hweek, hleaves⟩
      simpa [hnone] using labelled t ((hmem t).mpr ht)
    · intro stays t ht
      rw [← Option.ne_none_iff_isSome]
      intro hnone
      have hleaves := (bucketLabel?_eq_none_iff t a.granularity a.offset).mp hnone
      exact stays ⟨hleaves.1, t, (hmem t).mp ht, hleaves.2⟩

/-- One record in the last second of the calendar, charted by week. -/
theorem Dashboard.build?_of_last_second :
    Dashboard.build? ⟨.week, 0, 1704067200⟩ Palette.Session.empty
        [⟨none, none, none, "gpt-4", 8210266876799, 1, 1.0, 1⟩] = none ∧
      bucketLabel? 8210266444800 .week 0 = none := by
  have hlabel : bucketLabel? 8210266444800 .week 0 = none :=
    (bucketLabel?_eq_none_iff _ _ _).mpr (by decide)
  refine ⟨?_, hlabel⟩
  rw [← Option.not_isSome_iff_eq_none, build?_isSome_iff]
  rintro ⟨tally, taken, labelled⟩
  have bucket : Aggregation.bucket? ⟨.week, 0, 1704067200⟩
      ⟨none, none, none, "gpt-4", 8210266876799, 1, 1.0, 1⟩ = some 8210266444800 := by decide
  simp only [Aggregation.ordered, List.isEmpty_cons, Bool.false_eq_true, if_false,
    List.mergeSort_singleton, Tally.ofRecords?, List.foldlM_cons, List.foldlM_nil, Tally.add?, bucket,
    Option.map_some, Option.bind_eq_bind, Option.bind_some, Option.pure_def, Option.some.injEq] at taken
  subst taken
  have hcharted := labelled 8210266444800 (by decide)
  simp [hlabel] at hcharted

end UsageBoard.Usage
