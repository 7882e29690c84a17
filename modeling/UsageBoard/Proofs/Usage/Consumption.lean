import Mathlib.Data.Finset.Card
import Mathlib.Data.Finset.Range
import Mathlib.Data.List.ProdSigma
import Mathlib.Order.Bounds.Basic
import UsageBoard.Proofs.Usage.Tally

/-!
# The rows of a consumption series

Main statement: the series has one row for each charted bucket and each model, in the order of the
labels, then of the buckets, then of the models as they first appear
(`consumption_crosses_timeline`).
-/

namespace UsageBoard.Usage

theorem nodup_of_pairwise_lt {times : List Int64} (sorted : times.Pairwise (· < ·)) : times.Nodup := by
  refine sorted.imp ?_
  rintro t _ hlt rfl
  exact Int64.lt_irrefl hlt

theorem le_getLast {times : List Int64} (sorted : times.Pairwise (· < ·)) {latest : Int64}
    (last : times.getLast? = some latest) : ∀ t ∈ times, t ≤ latest := by
  obtain ⟨earlier, rfl⟩ := List.getLast?_eq_some_iff.mp last
  intro t ht
  rcases List.mem_append.mp ht with ht | ht
  · exact Int64.le_of_lt ((List.pairwise_append.mp sorted).2.2 t ht latest (by simp))
  · exact Int64.le_of_eq (List.mem_singleton.mp ht)

namespace Aggregation

variable (a : Aggregation)

/-- The buckets that are charted, given those with records and the latest of them: the same ones,
unless they are few; then the latest and the six before it. -/
def charted (observed : Finset Int64) (latest : Int64) : Finset Int64 :=
  if leastBuckets ≤ observed.card then observed
  else (Finset.range leastBuckets).image fun steps : Nat =>
    Saturating.clamp (latest.toInt - steps * a.granularity.seconds)

def labelOf (t : Int64) : String := (bucketLabel? t a.granularity a.offset).getD ""

theorem before_eq_clamp (latest : Int64) {steps : Nat} (few : steps < leastBuckets) :
    a.before latest steps = Saturating.clamp (latest.toInt - steps * a.granularity.seconds) := by
  have hsteps : steps < 7 := few
  have hinner : (Saturating.clamp (steps * a.granularity.seconds)).toInt =
      steps * a.granularity.seconds := by
    rw [Saturating.toInt_clamp, Saturating.int64End_eq]
    cases a.granularity <;> simp only [Granularity.seconds] <;> omega
  rw [before, Saturating.sub, hinner]

theorem pairwise_timeline {buckets : List Int64} (sorted : buckets.Pairwise (· < ·)) :
    (a.timeline buckets).Pairwise (· < ·) := by
  unfold timeline
  split
  · split
    · exact pairwise_timesOnce _
    · exact sorted
  · exact sorted

theorem mem_timeline {buckets : List Int64} (sorted : buckets.Pairwise (· < ·)) {latest : Int64}
    (last : buckets.getLast? = some latest) (t : Int64) :
    t ∈ a.timeline buckets ↔ t ∈ a.charted buckets.toFinset latest := by
  have hcard : buckets.toFinset.card = buckets.length :=
    List.toFinset_card_of_nodup (nodup_of_pairwise_lt sorted)
  simp only [timeline, last, charted, hcard]
  by_cases few : buckets.length < leastBuckets
  · rw [if_pos few, if_neg (Nat.not_le.mpr few)]
    simp only [mem_timesOnce, List.mem_map, List.mem_range, Finset.mem_image, Finset.mem_range]
    constructor
    · rintro ⟨steps, hsteps, rfl⟩
      exact ⟨steps, hsteps, (a.before_eq_clamp latest hsteps).symm⟩
    · rintro ⟨steps, hsteps, rfl⟩
      exact ⟨steps, hsteps, a.before_eq_clamp latest hsteps⟩
  · rw [if_neg few, if_pos (Nat.not_lt.mp few), List.mem_toFinset]

theorem bucketRows?_mapM {tally : Tally} {times : List Int64} {rows : List (List Consumption)}
    (built : times.mapM (a.bucketRows? tally) = some rows) :
    (∀ t ∈ times, bucketLabel? t a.granularity a.offset = some (a.labelOf t)) ∧
      rows.flatten = (times ×ˢ tally.models).map fun key =>
        ⟨a.labelOf key.1, key.2, tally.usage key.1 key.2⟩ := by
  induction times generalizing rows with
  | nil =>
      obtain rfl : [] = rows := by simpa using built
      simp
  | cons t times ih =>
      simp only [List.mapM_cons, Option.bind_eq_bind, Option.bind_eq_some_iff, Option.pure_def,
        Option.some.injEq] at built
      obtain ⟨first, hfirst, others, hothers, rfl⟩ := built
      obtain ⟨label, hlabel, rfl⟩ := Option.map_eq_some_iff.mp hfirst
      obtain ⟨labelled, hflatten⟩ := ih hothers
      have hof : a.labelOf t = label := by simp [labelOf, hlabel]
      refine ⟨?_, ?_⟩
      · intro s hs
        rcases List.mem_cons.mp hs with rfl | hs
        · rw [hlabel, hof]
        · exact labelled s hs
      · rw [List.flatten_cons, hflatten, List.product_cons, List.map_append, List.map_map, ← hof]
        rfl

/-- Whether the row of a bucket and a model comes before that of another. -/
def Precedes (models : List String) (p q : Int64 × String) : Prop :=
  a.labelOf p.1 < a.labelOf q.1 ∨
    a.labelOf p.1 = a.labelOf q.1 ∧
      (p.1 < q.1 ∨ p.1 = q.1 ∧ models.idxOf p.2 < models.idxOf q.2)

theorem pairwise_product {times : List Int64} {models : List String}
    (sorted : times.Pairwise (· < ·)) (distinct : models.Nodup) :
    (times ×ˢ models).Pairwise fun p q =>
      p.1 < q.1 ∨ p.1 = q.1 ∧ models.idxOf p.2 < models.idxOf q.2 := by
  have byPlace : models.Pairwise fun m n => models.idxOf m < models.idxOf n := by
    rw [List.pairwise_iff_getElem]
    intro i j hi hj hij
    rwa [distinct.idxOf_getElem i hi, distinct.idxOf_getElem j hj]
  change (times.flatMap fun t => models.map (t, ·)).Pairwise _
  rw [List.pairwise_flatMap]
  constructor
  · intro t _
    exact List.pairwise_map.mpr (byPlace.imp fun hlt => .inr ⟨rfl, hlt⟩)
  · refine sorted.imp ?_
    intro t u hlt p hp q hq
    obtain ⟨m, -, rfl⟩ := List.mem_map.mp hp
    obtain ⟨n, -, rfl⟩ := List.mem_map.mp hq
    exact .inl hlt

def labelsAscend (p q : Int64 × String) : Bool := decide (a.labelOf p.1 ≤ a.labelOf q.1)

theorem pairwise_precedes_mergeSort {times : List Int64} {models : List String}
    (sorted : times.Pairwise (· < ·)) (distinct : models.Nodup) :
    ((times ×ˢ models).mergeSort a.labelsAscend).Pairwise (a.Precedes models) := by
  have trans : ∀ p q r, a.labelsAscend p q → a.labelsAscend q r → a.labelsAscend p r := by
    intro p q r hpq hqr
    simp only [labelsAscend, decide_eq_true_eq] at hpq hqr ⊢
    exact String.le_trans hpq hqr
  have total : ∀ p q, a.labelsAscend p q || a.labelsAscend q p := by
    intro p q
    simpa [labelsAscend] using String.le_total (a.labelOf p.1) (a.labelOf q.1)
  refine (pairwise_mergeSort_or trans total (pairwise_product sorted distinct)).imp ?_
  rintro p q ⟨hle, hback | hplace⟩
  · left
    simpa [labelsAscend] using hback
  · have hle : a.labelOf p.1 ≤ a.labelOf q.1 := by simpa [labelsAscend] using hle
    by_cases heq : a.labelOf p.1 = a.labelOf q.1
    · exact .inr ⟨heq, hplace⟩
    · left
      exact String.not_le.mp fun hge => heq (String.le_antisymm hle hge)

/-- A series with one row for each of some buckets and each of some models, in the order of the
labels, then of the buckets, then of the models. -/
structure Crosses (rows : List UsageRecord) (models : List String) (times : Finset Int64)
    (keys : List (Int64 × String)) (series : List Consumption) : Prop where
  labelled : ∀ t ∈ times, bucketLabel? t a.granularity a.offset = some (a.labelOf t)
  nodup : keys.Nodup
  mem_iff : ∀ key, key ∈ keys ↔ key.1 ∈ times ∧ key.2 ∈ models
  length : series.length = times.card * models.length
  rows_eq : series = keys.map fun key => ⟨a.labelOf key.1, key.2, quotaIn a rows key.1 key.2⟩
  ordered : keys.Pairwise (a.Precedes models)

theorem crosses_of_consumption? {tally : Tally} {rows : List UsageRecord} {series : List Consumption}
    (h : tally.Describes a rows) {latest : Int64} (last : tally.buckets.getLast? = some latest)
    (built : a.consumption? tally = some series) :
    a.Crosses rows tally.models (a.charted tally.buckets.toFinset latest)
      ((a.timeline tally.buckets ×ˢ tally.models).mergeSort a.labelsAscend) series := by
  obtain ⟨parts, hparts, rfl⟩ := Option.map_eq_some_iff.mp built
  obtain ⟨labelled, hflatten⟩ := a.bucketRows?_mapM hparts
  have sorted := a.pairwise_timeline h.sorted
  have distinct := h.models.nodup
  have hperm := List.mergeSort_perm (a.timeline tally.buckets ×ˢ tally.models) a.labelsAscend
  have hcard : (a.charted tally.buckets.toFinset latest).card = (a.timeline tally.buckets).length := by
    rw [← List.toFinset_card_of_nodup (nodup_of_pairwise_lt sorted)]
    congr 1
    ext t
    rw [List.mem_toFinset, a.mem_timeline h.sorted last]
  constructor
  · intro t ht
    exact labelled t ((a.mem_timeline h.sorted last t).mpr ht)
  · exact hperm.nodup_iff.mpr ((nodup_of_pairwise_lt sorted).product distinct)
  · rintro ⟨t, m⟩
    rw [hperm.mem_iff, List.mem_product, a.mem_timeline h.sorted last]
  · rw [List.length_mergeSort, hflatten, List.length_map, List.length_product, hcard]
  · simp only [hflatten, h.usage]
    refine (List.map_mergeSort ?_).symm
    intro p _ q _
    rfl
  · exact a.pairwise_precedes_mergeSort sorted distinct

end Aggregation

theorem Aggregation.ordered_ne_nil (a : Aggregation) (records : List UsageRecord) :
    a.ordered records ≠ [] := by
  intro hnil
  exact a.present_ne_nil records (List.nil_perm.mp (hnil ▸ (a.isByTime_ordered records).perm))

/-- The last bucket of a tally is the latest with records. -/
theorem Tally.Describes.exists_starts {a : Aggregation} {tally : Tally} {rows others : List UsageRecord}
    (h : tally.Describes a rows) (some_row : rows ≠ []) (perm : rows.Perm others) :
    ∃ starts latest, a.buckets? others = some starts ∧ IsGreatest {t | t ∈ starts} latest ∧
      tally.buckets.getLast? = some latest ∧ tally.buckets.toFinset = starts.toFinset := by
  have bucketed : (a.buckets? others).isSome :=
    isSome_buckets?_iff.mpr fun r hr => h.bucketed r (perm.mem_iff.mpr hr)
  obtain ⟨starts, hstarts⟩ := Option.isSome_iff_exists.mp bucketed
  have hmem : ∀ t, t ∈ tally.buckets ↔ t ∈ starts := by
    intro t
    simp only [h.mem_buckets, mem_of_buckets? hstarts, perm.mem_iff]
  obtain ⟨r, hr⟩ := List.exists_mem_of_ne_nil rows some_row
  obtain ⟨t, ht⟩ := Option.isSome_iff_exists.mp (h.bucketed r hr)
  have hne : tally.buckets ≠ [] := List.ne_nil_of_mem ((h.mem_buckets t).mpr ⟨r, hr, ht⟩)
  have last := List.getLast?_eq_some_getLast hne
  refine ⟨starts, tally.buckets.getLast hne, hstarts, ⟨?_, ?_⟩, last, ?_⟩
  · exact (hmem _).mp (List.getLast_mem hne)
  · exact fun t ht => le_getLast h.sorted last t ((hmem t).mpr ht)
  · ext t
    rw [List.mem_toFinset, List.mem_toFinset, hmem]

theorem Tally.Describes.exists_starts_present {a : Aggregation} {tally : Tally}
    {records : List UsageRecord} (h : tally.Describes a (a.ordered records)) :
    ∃ starts latest, a.buckets? (a.present records) = some starts ∧
      IsGreatest {t | t ∈ starts} latest ∧ tally.buckets.getLast? = some latest ∧
      tally.buckets.toFinset = starts.toFinset :=
  h.exists_starts (a.ordered_ne_nil records) (a.isByTime_ordered records).perm

/-- Records that all have buckets have a tally. -/
theorem Aggregation.exists_tally {a : Aggregation} {records : List UsageRecord} {starts : List Int64}
    (bucketed : a.buckets? (a.present records) = some starts) :
    ∃ tally latest, Tally.ofRecords? a (a.ordered records) = some tally ∧
      tally.Describes a (a.ordered records) ∧ IsGreatest {t | t ∈ starts} latest ∧
      tally.buckets.getLast? = some latest ∧ tally.buckets.toFinset = starts.toFinset := by
  have all : ∀ r ∈ a.present records, (a.bucket? r).isSome :=
    isSome_buckets?_iff.mp (by rw [bucketed, Option.isSome_some])
  have ordered : ∀ r ∈ a.ordered records, (a.bucket? r).isSome := fun r hr =>
    all r ((a.isByTime_ordered records).perm.mem_iff.mp hr)
  obtain ⟨tally, taken⟩ := Option.isSome_iff_exists.mp (Tally.isSome_ofRecords?_iff.mpr ordered)
  have known := Tally.describes_ofRecords? taken
  obtain ⟨others, latest, hothers, greatest, last, hbuckets⟩ := known.exists_starts_present
  obtain rfl : starts = others := Option.some.inj (bucketed.symm.trans hothers)
  exact ⟨tally, latest, taken, known, greatest, last, hbuckets⟩

theorem Dashboard.totals_of_build? {a : Aggregation} {session later : Palette.Session}
    {records : List UsageRecord} {dashboard : Dashboard}
    (built : Dashboard.build? a session records = some (dashboard, later)) :
    dashboard.totals = sumsOf (a.ordered records) := by
  obtain ⟨tally, known, shown⟩ := exists_tally_of_build? built
  exact shown.totals.trans known.totals

/-- There is a series just if all charted buckets have labels. -/
theorem Aggregation.isSome_consumption?_iff {a : Aggregation} {tally : Tally} :
    (a.consumption? tally).isSome ↔
      ∀ t ∈ a.timeline tally.buckets, (bucketLabel? t a.granularity a.offset).isSome := by
  simp only [consumption?, Option.isSome_map, isSome_mapM_iff, bucketRows?]

theorem Dashboard.isSome_ofTally?_iff {a : Aggregation} {session : Palette.Session} {tally : Tally} :
    (ofTally? a session tally).isSome ↔
      ∀ t ∈ a.timeline tally.buckets, (bucketLabel? t a.granularity a.offset).isSome := by
  rw [ofTally?, Option.isSome_map, Aggregation.isSome_consumption?_iff]

theorem bucketLabel?_isSome {granularity : Granularity} (short : granularity ≠ .week) (t : Int64)
    (offset : Int) : (bucketLabel? t granularity offset).isSome := by
  unfold bucketLabel?
  cases granularity with
  | hour => dsimp only; split <;> rfl
  | day => dsimp only; split <;> rfl
  | week => exact absurd rfl short

/-- Only a week may have no label, so there is a dashboard for any narrower buckets that have a start. -/
theorem Dashboard.exists_build? (a : Aggregation) (session : Palette.Session)
    (records : List UsageRecord) (short : a.granularity ≠ .week)
    (bucketed : ∀ r ∈ a.present records, (a.bucket? r).isSome) :
    ∃ dashboard later, Dashboard.build? a session records = some (dashboard, later) := by
  obtain ⟨starts, bucketed⟩ := Option.isSome_iff_exists.mp (isSome_buckets?_iff.mpr bucketed)
  obtain ⟨tally, -, taken, -⟩ := Aggregation.exists_tally bucketed
  have shown : (ofTally? a session tally).isSome :=
    isSome_ofTally?_iff.mpr fun t _ => bucketLabel?_isSome short t a.offset
  rwa [build?, taken, Option.bind_some, ← Prod.exists', ← Option.isSome_iff_exists]

/-- The consumption of a dashboard crosses the charted buckets with the models. -/
theorem Dashboard.consumption_crosses_timeline (a : Aggregation) (session later : Palette.Session)
    (records : List UsageRecord) (dashboard : Dashboard)
    (built : Dashboard.build? a session records = some (dashboard, later)) :
    ∃ (rows : List UsageRecord) (models : List String) (starts : List Int64) (latest : Int64)
      (keys : List (Int64 × String)),
      IsByTime (a.present records) rows ∧
        IsFirstSeen (rows.map UsageRecord.modelName) models ∧
        a.buckets? rows = some starts ∧ latest ∈ starts ∧ (∀ t ∈ starts, t ≤ latest) ∧
        a.Crosses rows models (a.charted starts.toFinset latest) keys dashboard.consumption := by
  obtain ⟨tally, known, shown⟩ := exists_tally_of_build? built
  obtain ⟨starts, latest, bucketed, greatest, last, hbuckets⟩ :=
    known.exists_starts (a.ordered_ne_nil records) (List.Perm.refl _)
  have crossing := a.crosses_of_consumption? known last shown.consumption
  rw [hbuckets] at crossing
  exact ⟨a.ordered records, _, starts, latest, _, a.isByTime_ordered records, known.models, bucketed,
    greatest.1, greatest.2, crossing⟩

/-- Two models in one bucket, the later record first: fourteen rows. -/
theorem Dashboard.consumption_crosses_timeline_of_two_models :
    let a : Aggregation := ⟨.hour, 0, 0⟩
    let records := [⟨none, none, none, "b", 7300, 2, 0.5, 9⟩, ⟨none, none, none, "a", 7200, 1, 1.0, 8⟩]
    ∃ dashboard later, Dashboard.build? a Palette.Session.empty records = some (dashboard, later) ∧
      ∃ (rows : List UsageRecord) (models : List String) (starts : List Int64) (latest : Int64)
        (keys : List (Int64 × String)),
        IsByTime (a.present records) rows ∧
          IsFirstSeen (rows.map UsageRecord.modelName) models ∧
          a.buckets? rows = some starts ∧ latest ∈ starts ∧ (∀ t ∈ starts, t ≤ latest) ∧
          a.Crosses rows models (a.charted starts.toFinset latest) keys dashboard.consumption := by
  intro a records
  obtain ⟨dashboard, later, built⟩ :=
    Dashboard.exists_build? a Palette.Session.empty records (by decide) (by decide)
  exact ⟨dashboard, later, built, consumption_crosses_timeline _ _ _ _ _ built⟩

end UsageBoard.Usage
