import UsageBoard.Proofs.Usage.Consumption
import UsageBoard.Proofs.Usage.Truncation

/-!
# Where the quota of a record is charted

If there are few buckets, the chart shows a window of seven buckets instead of those with records.
Both lie on the grid of multiples of the bucket's width.  Main statement: each record is part of
exactly one row of the consumption, unless it is older than the window (`charts_each_record_once`).
-/

namespace UsageBoard

theorem Saturating.toInt_clamp_of_fits {n : Int} (fits : Words.fitsInt64 n) : (clamp n).toInt = n := by
  rw [Words.fitsInt64_iff] at fits
  rw [toInt_clamp, int64End_eq]
  omega

namespace Usage

/-- The positions of some keys, each of which is there at most once. -/
theorem idxOf?_eq_some_iff_of_nodup {κ : Type} [BEq κ] [LawfulBEq κ] {keys : List κ} (distinct : keys.Nodup)
    (key : κ) (i : Nat) : keys.idxOf? key = some i ↔ keys[i]? = some key := by
  rw [List.idxOf?_eq_some_iff]
  constructor
  · rintro ⟨h, hkey, -⟩
    rw [List.getElem?_eq_getElem h, hkey]
  · intro hkey
    obtain ⟨h, hkey⟩ := List.getElem?_eq_some_iff.mp hkey
    refine ⟨h, hkey, ?_⟩
    intro j hj heq
    have hjlt : j < keys.length := by omega
    exact absurd (distinct.getElem_inj_iff.mp (heq.trans hkey.symm)) (by omega)

namespace Aggregation

variable (a : Aggregation)

/-- The first bucket of the window that ends at a bucket. -/
def windowStart (latest : Int64) : Int := latest.toInt - 6 * a.granularity.seconds

/-- Seven buckets one after the other, the last of them the latest with records; all buckets with
records that are not older are among them. -/
structure IsWindow (observed : Finset Int64) (latest : Int64) (window : Finset Int64) : Prop where
  card : window.card = 7
  aligned : ∀ t ∈ window, a.granularity.seconds ∣ t.toInt
  consecutive : ∀ n : Int, (∃ t ∈ window, t.toInt = n) ↔
    ∃ steps : Nat, steps < 7 ∧ n = latest.toInt - steps * a.granularity.seconds
  recent : ∀ t ∈ observed, a.windowStart latest ≤ t.toInt → t ∈ window

variable {a} {observed : Finset Int64} {latest : Int64}

theorem toInt_step (fits : Words.fitsInt64 (a.windowStart latest)) {steps : Nat} (few : steps < 7) :
    (Saturating.clamp (latest.toInt - steps * a.granularity.seconds)).toInt =
      latest.toInt - steps * a.granularity.seconds := by
  have hlatest := latest.toInt_lt
  refine Saturating.toInt_clamp_of_fits ?_
  rw [Words.fitsInt64_iff] at fits ⊢
  unfold windowStart at fits
  cases h : a.granularity <;> simp only [h, Granularity.seconds] at fits ⊢ <;> omega

theorem mem_charted_of_few (few : observed.card < leastBuckets)
    (fits : Words.fitsInt64 (a.windowStart latest)) (t : Int64) :
    t ∈ a.charted observed latest ↔
      ∃ steps : Nat, steps < 7 ∧ t.toInt = latest.toInt - steps * a.granularity.seconds := by
  rw [charted, if_neg (Nat.not_le.mpr few)]
  simp only [Finset.mem_image, Finset.mem_range, leastBuckets]
  constructor
  · rintro ⟨steps, hsteps, rfl⟩
    exact ⟨steps, hsteps, toInt_step fits hsteps⟩
  · rintro ⟨steps, hsteps, ht⟩
    refine ⟨steps, hsteps, Int64.toInt_inj.mp ?_⟩
    rw [toInt_step fits hsteps, ht]

theorem card_charted_of_few (few : observed.card < leastBuckets)
    (fits : Words.fitsInt64 (a.windowStart latest)) : (a.charted observed latest).card = 7 := by
  rw [charted, if_neg (Nat.not_le.mpr few), Finset.card_image_of_injOn, Finset.card_range]
  · rfl
  · intro i hi j hj heq
    have hsteps := congrArg Int64.toInt heq
    simp only [Finset.coe_range, Set.mem_Iio, leastBuckets] at hi hj
    simp only [toInt_step fits hi, toInt_step fits hj] at hsteps
    cases h : a.granularity <;> simp only [h, Granularity.seconds] at hsteps <;> omega

/-- Few buckets on the grid are charted as a window on the grid. -/
theorem isWindow_charted (aligned : ∀ t ∈ observed, a.granularity.seconds ∣ t.toInt)
    (mem : latest ∈ observed) (greatest : ∀ t ∈ observed, t ≤ latest)
    (few : observed.card < leastBuckets) (fits : Words.fitsInt64 (a.windowStart latest)) :
    a.IsWindow observed latest (a.charted observed latest) := by
  constructor
  · exact card_charted_of_few few fits
  · intro t ht
    obtain ⟨steps, -, ht⟩ := (mem_charted_of_few few fits t).mp ht
    rw [ht]
    exact Int.dvd_sub (aligned latest mem) (Int.dvd_mul_left _ _)
  · intro n
    constructor
    · rintro ⟨t, ht, rfl⟩
      exact (mem_charted_of_few few fits t).mp ht
    · rintro ⟨steps, hsteps, rfl⟩
      have ht := toInt_step fits hsteps
      exact ⟨_, (mem_charted_of_few few fits _).mpr ⟨steps, hsteps, ht⟩, ht⟩
  · intro t ht recent
    have hle := Int64.le_iff_toInt_le.mp (greatest t ht)
    obtain ⟨m, hm⟩ := aligned latest mem
    obtain ⟨n, hn⟩ := aligned t ht
    -- both are on the grid, so the latest is a whole number of steps away
    refine (mem_charted_of_few few fits t).mpr ⟨(m - n).toNat, ?_⟩
    unfold windowStart at recent
    cases h : a.granularity <;> simp only [h, Granularity.seconds] at hm hn recent ⊢ <;> omega

/-- Of the buckets with records only those are left out that are older than the window. -/
theorem notMem_charted_iff (aligned : ∀ t ∈ observed, a.granularity.seconds ∣ t.toInt)
    (mem : latest ∈ observed) (greatest : ∀ t ∈ observed, t ≤ latest)
    (fits : Words.fitsInt64 (a.windowStart latest)) {t : Int64} (ht : t ∈ observed) :
    t ∉ a.charted observed latest ↔
      observed.card < leastBuckets ∧ t.toInt < a.windowStart latest := by
  by_cases few : observed.card < leastBuckets
  · constructor
    · intro old
      refine ⟨few, Int.not_le.mp fun recent => old ?_⟩
      exact (isWindow_charted aligned mem greatest few fits).recent t ht recent
    · rintro ⟨-, old⟩ hcharted
      obtain ⟨steps, hsteps, hstep⟩ := (mem_charted_of_few few fits t).mp hcharted
      unfold windowStart at old
      cases h : a.granularity <;> simp only [h, Granularity.seconds] at hstep old <;> omega
  · have hall : a.charted observed latest = observed := if_pos (Nat.not_lt.mp few)
    simp [hall, ht, few]

variable (a)

/-- The place of each record among the rows of a series: its quota is part of the row there, which is
that of its bucket and its model; the old ones have no place. -/
structure Places (rows : List UsageRecord) (IsOld : UsageRecord → Prop) (keys : List (Int64 × String))
    (place : UsageRecord → Option Nat) (series : List Consumption) : Prop where
  usage_eq : ∀ i, ∀ _ : i < series.length, series[i].usage =
    (rows.filter fun r => place r = some i).foldl (fun sum r => sum + r.quota) 0.0
  key_of_place : ∀ r ∈ rows, ∀ i, place r = some i →
    ∃ start, a.bucket? r = some start ∧ keys[i]? = some (start, r.modelName)
  place_eq_none_iff : ∀ r ∈ rows, place r = none ↔ IsOld r

/-- Where a key of a record's bucket and model stands. -/
def placeIn (keys : List (Int64 × String)) (r : UsageRecord) : Option Nat :=
  (a.bucket? r).bind fun start => keys.idxOf? (start, r.modelName)

variable {a}

theorem placeIn_eq_some_iff {keys : List (Int64 × String)} (distinct : keys.Nodup) {r : UsageRecord}
    {i : Nat} : a.placeIn keys r = some i ↔
      ∃ start, a.bucket? r = some start ∧ keys[i]? = some (start, r.modelName) := by
  rw [placeIn, Option.bind_eq_some_iff]
  simp only [idxOf?_eq_some_iff_of_nodup distinct]

theorem Crosses.places {rows : List UsageRecord} {models : List String} {times : Finset Int64}
    {keys : List (Int64 × String)} {series : List Consumption}
    (h : a.Crosses rows models times keys series) (known : ∀ r ∈ rows, r.modelName ∈ models) :
    a.Places rows (fun r => ∀ start, a.bucket? r = some start → start ∉ times) keys (a.placeIn keys)
      series := by
  constructor
  · intro i hi
    have hkeys : i < keys.length := by simpa [h.rows_eq] using hi
    have hplace : ∀ r, a.placeIn keys r = some i ↔
        a.bucket? r = some keys[i].1 ∧ r.modelName = keys[i].2 := by
      intro r
      rw [placeIn_eq_some_iff h.nodup, List.getElem?_eq_getElem hkeys]
      constructor
      · rintro ⟨start, bucket, key⟩
        obtain key := Option.some.inj key
        rw [key]
        exact ⟨bucket, rfl⟩
      · rintro ⟨bucket, model⟩
        exact ⟨_, bucket, by rw [model]⟩
    simp only [h.rows_eq, List.getElem_map, quotaIn, hplace]
  · intro r _ i hplace
    exact (placeIn_eq_some_iff h.nodup).mp hplace
  · intro r hr
    rw [placeIn, Option.bind_eq_none_iff]
    simp only [List.idxOf?_eq_none_iff, h.mem_iff, known r hr, and_true]

theorem Places.congr {rows : List UsageRecord} {IsOld IsLeftOut : UsageRecord → Prop}
    {keys : List (Int64 × String)} {place : UsageRecord → Option Nat} {series : List Consumption}
    (h : a.Places rows IsOld keys place series) (same : ∀ r ∈ rows, IsOld r ↔ IsLeftOut r) :
    a.Places rows IsLeftOut keys place series :=
  ⟨h.usage_eq, h.key_of_place, fun r hr => (h.place_eq_none_iff r hr).trans (same r hr)⟩

end Aggregation

/-- The quota of each record is part of one row, that of its bucket and its model.  Only if there are
fewer than seven buckets, those that are older than the last seven are left out; the sums over all
have every record. -/
theorem Dashboard.charts_each_record_once (a : Aggregation) (session later : Palette.Session)
    (records : List UsageRecord) (dashboard : Dashboard) (starts : List Int64) (latest : Int64)
    (built : Dashboard.build? a session records = some (dashboard, later))
    (bucketed : a.buckets? records = some starts) (greatest : IsGreatest {t | t ∈ starts} latest)
    (reaches : Words.fitsInt64 (a.windowStart latest)) :
    let observed := starts.toFinset
    ∃ (rows : List UsageRecord) (models : List String) (keys : List (Int64 × String))
      (place : UsageRecord → Option Nat),
      IsByTime records rows ∧
        a.Crosses rows models (a.charted observed latest) keys dashboard.consumption ∧
        a.Places rows (fun r => observed.card < 7 ∧
            ∃ start, a.bucket? r = some start ∧ start.toInt < a.windowStart latest) keys place
          dashboard.consumption ∧
        (observed.card < 7 → a.IsWindow observed latest (a.charted observed latest)) ∧
        (7 ≤ observed.card → a.charted observed latest = observed) ∧
        dashboard.totals = sumsOf rows := by
  intro observed
  have hmem : latest ∈ observed := List.mem_toFinset.mpr greatest.1
  have hle : ∀ t ∈ observed, t ≤ latest := fun t ht => greatest.2 (List.mem_toFinset.mp ht)
  have aligned : ∀ t ∈ observed, a.granularity.seconds ∣ t.toInt := by
    intro t ht
    obtain ⟨r, -, bucket⟩ := (mem_of_buckets? bucketed).mp (List.mem_toFinset.mp ht)
    exact Granularity.dvd_of_truncate? bucket
  have hpresent : a.present records = records := by
    refine if_neg ?_
    rintro rfl
    cases bucketed
    exact List.not_mem_nil greatest.1
  have byTime := a.isByTime_ordered records
  obtain ⟨tally, known, shown⟩ := exists_tally_of_build? built
  obtain ⟨others, last, hothers, hgreatest, hlast, hbuckets⟩ := known.exists_starts_present
  rw [hpresent] at byTime hothers
  obtain rfl : starts = others := Option.some.inj (bucketed.symm.trans hothers)
  obtain rfl : last = latest := Int64.le_antisymm (greatest.2 hgreatest.1) (hgreatest.2 greatest.1)
  have crossing := a.crosses_of_consumption? known hlast shown.consumption
  rw [hbuckets] at crossing
  refine ⟨a.ordered records, _, _, _, byTime, crossing, (crossing.places ?_).congr ?_, ?_, ?_, ?_⟩
  · exact fun r hr => (known.models.mem_iff _).mpr (List.mem_map_of_mem hr)
  · intro r hr
    obtain ⟨start, bucket⟩ := Option.isSome_iff_exists.mp (known.bucketed r hr)
    have there : start ∈ observed := List.mem_toFinset.mpr
      ((mem_of_buckets? bucketed).mpr ⟨r, byTime.perm.mem_iff.mp hr, bucket⟩)
    simp only [bucket, Option.some.injEq, forall_eq', exists_eq_left']
    exact Aggregation.notMem_charted_iff aligned hmem hle reaches there
  · exact fun few => Aggregation.isWindow_charted aligned hmem hle few reaches
  · exact fun many => if_pos many
  · exact totals_of_build? built

/-- Two records ten hours apart: the earlier one is left out of the window and part of the sums. -/
theorem Dashboard.charts_each_record_once_of_gap :
    let a : Aggregation := ⟨.hour, 0, 0⟩
    let records := [⟨none, none, none, "gpt-4", 36000, 1, 1.0, 10⟩, ⟨none, none, none, "gpt-4", 7, 1, 4.0, 10⟩]
    ∃ dashboard later, Dashboard.build? a Palette.Session.empty records = some (dashboard, later) ∧
      a.buckets? records = some [36000, 0] ∧
      ∃ (rows : List UsageRecord) (keys : List (Int64 × String)) (place : UsageRecord → Option Nat),
        IsByTime records rows ∧
          a.Places rows (fun r => [(36000 : Int64), 0].toFinset.card < 7 ∧
            ∃ start, a.bucket? r = some start ∧ start.toInt < a.windowStart 36000) keys place
            dashboard.consumption ∧
          a.IsWindow [36000, 0].toFinset 36000 (a.charted [36000, 0].toFinset 36000) ∧
          dashboard.totals = sumsOf rows := by
  intro a records
  obtain ⟨dashboard, later, built⟩ :=
    Dashboard.exists_build? a Palette.Session.empty records (by decide) (by decide)
  have bucketed : a.buckets? records = some [36000, 0] := by decide
  have greatest : IsGreatest {t | t ∈ [(36000 : Int64), 0]} 36000 := by
    refine ⟨List.mem_cons_self, fun t mem => ?_⟩
    rcases List.mem_pair.mp mem with rfl | rfl <;> decide
  obtain ⟨rows, models, keys, place, byTime, -, places, window, -, totals⟩ :=
    charts_each_record_once a _ later records dashboard _ 36000 built bucketed greatest (by decide)
  exact ⟨dashboard, later, built, bucketed, rows, keys, place, byTime, places, window (by decide), totals⟩

end Usage

end UsageBoard
