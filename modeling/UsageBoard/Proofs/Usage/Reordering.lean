import UsageBoard.Proofs.Usage.Calls
import UsageBoard.Proofs.Usage.Colors

/-!
# Records in another order

The backend may list the same records in any order.  Main statement: records of different times give
the same dashboard in every order, and of records of equal times all but the sums of quotas and the
order of equal rows is the same (`agrees_of_perm`).
-/

namespace UsageBoard.Usage

open UsageBoard.Palette (Session)

/-- Sorting forgets the order of elements that are never tied. -/
theorem mergeSort_eq_of_perm {α : Type} {le : α → α → Bool} (trans : ∀ x y z, le x y → le y z → le x z)
    (total : ∀ x y, le x y || le y x) {l k : List α} (perm : l.Perm k)
    (untied : ∀ x ∈ l, ∀ y ∈ l, le x y → le y x → x = y) : l.mergeSort le = k.mergeSort le := by
  have sorted : ∀ xs : List α, (xs.mergeSort le).Pairwise fun x y => le x y = true :=
    List.pairwise_mergeSort trans total
  have hperm : (l.mergeSort le).Perm (k.mergeSort le) :=
    (List.mergeSort_perm l le).trans (perm.trans (List.mergeSort_perm k le).symm)
  refine hperm.eq_of_pairwise ?_ (sorted l) (sorted k)
  intro x y hx hy hxy hyx
  exact untied x (List.mem_mergeSort.mp hx) y (perm.mem_iff.mpr (List.mem_mergeSort.mp hy)) hxy hyx

namespace Aggregation

variable (a : Aggregation) {records shuffled : List UsageRecord}

theorem present_perm (perm : records.Perm shuffled) : (a.present records).Perm (a.present shuffled) := by
  unfold present
  by_cases h : records = []
  · subst h
    rw [List.nil_perm.mp perm]
  · have hne : shuffled ≠ [] := fun e => h (List.perm_nil.mp (e ▸ perm))
    rwa [if_neg h, if_neg hne]

theorem ordered_perm (perm : records.Perm shuffled) : (a.ordered records).Perm (a.ordered shuffled) :=
  (a.isByTime_ordered records).perm.trans
    ((a.present_perm perm).trans (a.isByTime_ordered shuffled).perm.symm)

theorem ordered_eq_of_perm (perm : records.Perm shuffled)
    (distinct : (records.map UsageRecord.createdAt).Nodup) : a.ordered records = a.ordered shuffled := by
  refine (a.ordered_perm perm).eq_of_pairwise ?_ (a.isByTime_ordered records).sorted
    (a.isByTime_ordered shuffled).sorted
  intro r s hr hs hrs hsr
  have present : ∀ t ∈ a.ordered records, t ∈ a.present records := fun t ht =>
    (a.isByTime_ordered records).perm.mem_iff.mp ht
  have once : ((a.present records).map UsageRecord.createdAt).Nodup := by
    unfold Aggregation.present
    split
    · exact List.nodup_singleton _
    · exact distinct
  exact List.inj_on_of_nodup_map once (present r hr)
    (present s ((a.ordered_perm perm).mem_iff.mpr hs)) (Int64.le_antisymm hrs hsr)

/-- The row that stands for an empty result adds nothing to a sum. -/
theorem sum_ordered (f : UsageRecord → Nat) (nothing : f (UsageRecord.placeholder a.now) = 0)
    (records : List UsageRecord) : ((a.ordered records).map f).sum = (records.map f).sum := by
  rw [((a.isByTime_ordered records).perm.map f).sum_eq, present]
  split
  · rename_i h
    simp [h, nothing]
  · rfl

end Aggregation

/-! ## What two tallies have in common -/

section Tallies

variable {a : Aggregation} {tally other : Tally} {rows shuffled : List UsageRecord}

theorem Tally.Describes.models_perm_of_mem_iff (h : tally.Describes a rows)
    (k : other.Describes a shuffled)
    (same : ∀ m, m ∈ rows.map UsageRecord.modelName ↔ m ∈ shuffled.map UsageRecord.modelName) :
    tally.models.Perm other.models := by
  rw [List.perm_ext_iff_of_nodup h.models.nodup k.models.nodup]
  intro model
  rw [h.models.mem_iff, k.models.mem_iff, same]

theorem Tally.Describes.models_perm (h : tally.Describes a rows) (k : other.Describes a shuffled)
    (perm : rows.Perm shuffled) : tally.models.Perm other.models :=
  h.models_perm_of_mem_iff k fun _ => (perm.map _).mem_iff

theorem Tally.Describes.buckets_eq_of_mem_iff (h : tally.Describes a rows)
    (k : other.Describes a shuffled)
    (same : ∀ t, (∃ r ∈ rows, a.bucket? r = some t) ↔ ∃ r ∈ shuffled, a.bucket? r = some t) :
    tally.buckets = other.buckets := by
  have hperm : tally.buckets.Perm other.buckets := by
    rw [List.perm_ext_iff_of_nodup (nodup_of_pairwise_lt h.sorted) (nodup_of_pairwise_lt k.sorted)]
    intro t
    rw [h.mem_buckets, k.mem_buckets, same]
  refine hperm.eq_of_pairwise ?_ h.sorted k.sorted
  intro t u _ _ htu hut
  exact absurd htu (Int64.lt_asymm hut)

theorem Tally.Describes.buckets_eq (h : tally.Describes a rows) (k : other.Describes a shuffled)
    (perm : rows.Perm shuffled) : tally.buckets = other.buckets :=
  h.buckets_eq_of_mem_iff k fun _ => by simp only [perm.mem_iff]

theorem exactCalls_perm (perm : rows.Perm shuffled) (model : String) :
    exactCalls rows model = exactCalls shuffled model :=
  ((perm.filter _).map _).sum_eq

theorem callsOf_perm (perm : rows.Perm shuffled)
    (small : (rows.map fun r => r.count.toInt.natAbs).sum < Words.int64End) (model : String) :
    callsOf rows model = callsOf shuffled model := by
  have small' : (shuffled.map fun r => r.count.toInt.natAbs).sum < Words.int64End := by
    rwa [← (perm.map _).sum_eq]
  refine Int64.toInt_inj.mp ?_
  rw [toInt_callsOf small, toInt_callsOf small', exactCalls_perm perm]

theorem CountsCalls.mem_of_mem {counts others : List CallCount} (h : CountsCalls rows counts)
    (k : CountsCalls shuffled others)
    (same : ∀ m, m ∈ rows.map UsageRecord.modelName ↔ m ∈ shuffled.map UsageRecord.modelName)
    (calls : ∀ model, callsOf rows model = callsOf shuffled model) {c : CallCount} (hc : c ∈ counts) :
    c ∈ others := by
  have hmodel : c.model ∈ others.map CallCount.model := by
    rw [k.mem_iff, ← same, ← h.mem_iff]
    exact List.mem_map_of_mem hc
  obtain ⟨d, hd, hname⟩ := List.mem_map.mp hmodel
  have hvalue : d.value = c.value := by
    rw [k.value d hd, h.value c hc, hname, calls]
  obtain ⟨model, value⟩ := c
  obtain ⟨name, calls⟩ := d
  obtain rfl : name = model := hname
  obtain rfl : calls = value := hvalue
  exact hd

/-- Call counts with the same calls of the same models differ only in the order of ties. -/
theorem CountsCalls.perm_of_calls {counts others : List CallCount} (h : CountsCalls rows counts)
    (k : CountsCalls shuffled others)
    (same : ∀ m, m ∈ rows.map UsageRecord.modelName ↔ m ∈ shuffled.map UsageRecord.modelName)
    (calls : ∀ model, callsOf rows model = callsOf shuffled model) : counts.Perm others := by
  rw [List.perm_ext_iff_of_nodup h.nodup.of_map k.nodup.of_map]
  intro c
  constructor
  · exact h.mem_of_mem k same calls
  · exact k.mem_of_mem h (fun m => (same m).symm) fun model => (calls model).symm

theorem CountsCalls.perm {counts others : List CallCount} (h : CountsCalls rows counts)
    (k : CountsCalls shuffled others) (perm : rows.Perm shuffled)
    (small : (rows.map fun r => r.count.toInt.natAbs).sum < Words.int64End) : counts.Perm others :=
  h.perm_of_calls k (fun _ => (perm.map _).mem_iff) (callsOf_perm perm small)

/-- Running sums of numbers whose sizes fit are equal if the exact sums are. -/
theorem foldl_add_eq_of_sum_eq (f : UsageRecord → Int64)
    (sums : (rows.map fun r => (f r).toInt).sum = (shuffled.map fun r => (f r).toInt).sum)
    (small : (rows.map fun r => (f r).toInt.natAbs).sum < Words.int64End)
    (small' : (shuffled.map fun r => (f r).toInt.natAbs).sum < Words.int64End) :
    rows.foldl (fun sum r => Saturating.add sum (f r)) 0 =
      shuffled.foldl (fun sum r => Saturating.add sum (f r)) 0 := by
  refine Int64.toInt_inj.mp ?_
  rw [Saturating.toInt_foldl_add f rows 0 (by simpa using small),
    Saturating.toInt_foldl_add f shuffled 0 (by simpa using small'), sums]

/-- A running sum of numbers whose sizes fit does not depend on their order. -/
theorem foldl_add_perm (f : UsageRecord → Int64) (perm : rows.Perm shuffled)
    (small : (rows.map fun r => (f r).toInt.natAbs).sum < Words.int64End) :
    rows.foldl (fun sum r => Saturating.add sum (f r)) 0 =
      shuffled.foldl (fun sum r => Saturating.add sum (f r)) 0 :=
  foldl_add_eq_of_sum_eq f (perm.map _).sum_eq small (by rwa [← (perm.map _).sum_eq])

end Tallies

/-! ## What two dashboards have in common -/

def Consumption.place (c : Consumption) : String × String := (c.time, c.model)

theorem Aggregation.Crosses.places_perm {a : Aggregation} {rows others : List UsageRecord}
    {models names : List String} {times : Finset Int64} {keys places : List (Int64 × String)}
    {series rest : List Consumption} (h : a.Crosses rows models times keys series)
    (k : a.Crosses others names times places rest) (perm : models.Perm names) :
    (series.map Consumption.place).Perm (rest.map Consumption.place) := by
  have hkeys : keys.Perm places := by
    rw [List.perm_ext_iff_of_nodup h.nodup k.nodup]
    intro key
    rw [h.mem_iff, k.mem_iff, perm.mem_iff]
  rw [h.rows_eq, k.rows_eq, List.map_map, List.map_map]
  exact hkeys.map _

namespace Dashboard

theorem Shows.modelColors_eq {a : Aggregation} {session later : Session} {dashboard : Dashboard}
    {tally : Tally} (shown : dashboard.Shows a session tally later) :
    dashboard.modelColors = (tally.models.map fun model =>
      (model, session.shade model)).mergeSort fun p q => decide (p.1 ≤ q.1) := by
  rw [shown.modelColors, session.fst_resolveAll]

theorem shades_perm {one other : Session} (same : one.Agrees other) {models names : List String}
    (perm : models.Perm names) :
    ((models.map fun model => (model, one.shade model)).mergeSort fun p q => decide (p.1 ≤ q.1)) =
      (names.map fun model => (model, other.shade model)).mergeSort fun p q => decide (p.1 ≤ q.1) := by
  simp only [← same.shade]
  refine mergeSort_eq_of_perm ?_ ?_ (perm.map _) ?_
  · intro p q r hpq hqr
    simp only [decide_eq_true_eq] at hpq hqr ⊢
    exact String.le_trans hpq hqr
  · intro p q
    simpa using String.le_total p.1 q.1
  · intro p hp q hq hpq hqp
    obtain ⟨m, -, rfl⟩ := List.mem_map.mp hp
    obtain ⟨n, -, rfl⟩ := List.mem_map.mp hq
    simp only [decide_eq_true_eq] at hpq hqp
    rw [String.le_antisymm hpq hqp]

/-- The same records in another order give the same dashboard if no two are of one time.  In any case
they give the same models with the same colours, and rows for the same buckets and models; and the same
sums of calls and tokens, unless these may saturate. -/
theorem agrees_of_perm (a : Aggregation) (one other later last : Session)
    (records shuffled : List UsageRecord) (dashboard shown : Dashboard) (same : one.Agrees other)
    (perm : records.Perm shuffled) (built : build? a one records = some (dashboard, later))
    (rebuilt : build? a other shuffled = some (shown, last)) :
    ((records.map UsageRecord.createdAt).Nodup → dashboard = shown) ∧
      later.Agrees last ∧ dashboard.modelColors = shown.modelColors ∧
      (dashboard.consumption.map Consumption.place).Perm (shown.consumption.map Consumption.place) ∧
      ((records.map fun r => r.count.toInt.natAbs).sum < Words.int64End →
        dashboard.callCounts.Perm shown.callCounts ∧
          dashboard.totals.requests = shown.totals.requests) ∧
      ((records.map fun r => r.tokenUsed.toInt.natAbs).sum < Words.int64End →
        dashboard.totals.tokens = shown.totals.tokens) := by
  obtain ⟨tally, known, told⟩ := exists_tally_of_build? built
  obtain ⟨counted, found, retold⟩ := exists_tally_of_build? rebuilt
  have rows := a.ordered_perm perm
  have models := known.models_perm found rows
  refine ⟨?_, ?_, ?_, ?_, ?_, ?_⟩
  · intro distinct
    have hsame := map_fst_build?_congr same.shade (a.ordered_eq_of_perm perm distinct)
    rw [built, rebuilt] at hsame
    exact Option.some.inj hsame
  · rw [told.session, retold.session]
    exact same.resolveAll known.models.nodup models
  · rw [told.modelColors_eq, retold.modelColors_eq]
    exact shades_perm same models
  · obtain ⟨starts, latest, -, -, last, -⟩ := known.exists_starts_present
    have crossing := a.crosses_of_consumption? known last told.consumption
    rw [known.buckets_eq found rows] at last crossing
    exact crossing.places_perm (a.crosses_of_consumption? found last retold.consumption) models
  · intro small
    have small : ((a.ordered records).map fun r => r.count.toInt.natAbs).sum < Words.int64End := by
      rwa [a.sum_ordered _ rfl]
    constructor
    · exact (callCounts_of_build? built).perm (callCounts_of_build? rebuilt) rows small
    · rw [totals_of_build? built, totals_of_build? rebuilt]
      exact foldl_add_perm UsageRecord.count rows small
  · intro small
    rw [totals_of_build? built, totals_of_build? rebuilt]
    refine foldl_add_perm UsageRecord.tokenUsed rows ?_
    rwa [a.sum_ordered _ rfl]

/-- Two models in one bucket, first with one time for both of their records and then without. -/
theorem agrees_of_perm_of_two_models :
    let a : Aggregation := ⟨.hour, 0, 0⟩
    let first : UsageRecord := ⟨none, none, none, "b", 7300, 2, 0.5, 9⟩
    let second : UsageRecord := ⟨none, none, none, "a", 7300, 1, 1.0, 8⟩
    let third : UsageRecord := ⟨none, none, none, "a", 7200, 4, 2.0, 7⟩
    let session := Session.empty.assign "b" "#000000"
    (∃ dashboard later shown last,
      build? a session [first, second] = some (dashboard, later) ∧
        build? a session [second, first] = some (shown, last) ∧
        later.Agrees last ∧ dashboard.modelColors = shown.modelColors ∧
        (dashboard.consumption.map Consumption.place).Perm (shown.consumption.map Consumption.place) ∧
        dashboard.callCounts.Perm shown.callCounts ∧
        dashboard.totals.requests = shown.totals.requests ∧
        dashboard.totals.tokens = shown.totals.tokens) ∧
      ∃ dashboard later last,
        build? a session [first, third] = some (dashboard, later) ∧
          build? a session [third, first] = some (dashboard, last) := by
  intro a first second third session
  constructor
  · obtain ⟨dashboard, later, built⟩ := exists_build? a session [first, second] (by decide) (by decide)
    obtain ⟨shown, last, rebuilt⟩ := exists_build? a session [second, first] (by decide) (by decide)
    obtain ⟨-, colors, hcolors, places, counted, summed⟩ :=
      agrees_of_perm a session session later last _ _ dashboard shown (Session.Agrees.refl session)
        (List.Perm.swap second first []) built rebuilt
    obtain ⟨hcounts, hrequests⟩ := counted (by decide)
    exact ⟨dashboard, later, shown, last, built, rebuilt, colors, hcolors, places, hcounts, hrequests,
      summed (by decide)⟩
  · obtain ⟨dashboard, later, built⟩ := exists_build? a session [first, third] (by decide) (by decide)
    obtain ⟨shown, last, rebuilt⟩ := exists_build? a session [third, first] (by decide) (by decide)
    obtain ⟨equal, -⟩ :=
      agrees_of_perm a session session later last _ _ dashboard shown (Session.Agrees.refl session)
        (List.Perm.swap third first []) built rebuilt
    exact ⟨dashboard, later, last, built, equal (by decide) ▸ rebuilt⟩

end Dashboard

end UsageBoard.Usage
