import Mathlib.Algebra.Order.BigOperators.Group.List
import Mathlib.Algebra.Order.Ring.Int
import Mathlib.Algebra.Order.Ring.Nat
import UsageBoard.Proofs.Usage.Consumption

/-!
# The calls of each model

Sums that saturate are exact as long as the sizes of their numbers fit, and for numbers that are not
negative they are the exact sum, cut at the end of the range.  Main statement: the call counts of a
dashboard hold these sums, one for each model, the greatest first (`callCounts_sum_by_model`).
-/

namespace UsageBoard

namespace Saturating

variable {α : Type} (f : α → Int64)

theorem toInt_add (a b : Int64) :
    (add a b).toInt = max (-(Words.int64End : Int)) (min (a.toInt + b.toInt) (Words.int64End - 1)) :=
  toInt_clamp _

/-- A running sum is exact if the sizes of all its numbers add up to a number in range. -/
theorem toInt_foldl_add (xs : List α) (start : Int64)
    (small : start.toInt.natAbs + (xs.map fun x => (f x).toInt.natAbs).sum < Words.int64End) :
    (xs.foldl (fun sum x => add sum (f x)) start).toInt =
      start.toInt + (xs.map fun x => (f x).toInt).sum := by
  induction xs generalizing start with
  | nil => simp
  | cons x xs ih =>
      simp only [List.map_cons, List.sum_cons] at small ⊢
      have hadd : (add start (f x)).toInt = start.toInt + (f x).toInt := by
        rw [toInt_add]
        omega
      rw [List.foldl_cons, ih _ (by omega), hadd, Int.add_assoc]

/-- A running sum of numbers that are not negative is their exact sum, or the greatest number. -/
theorem toInt_foldl_add_of_nonneg (xs : List α) (nonneg : ∀ x ∈ xs, 0 ≤ (f x).toInt)
    (start : Int64) (hstart : 0 ≤ start.toInt) :
    (xs.foldl (fun sum x => add sum (f x)) start).toInt =
      min (start.toInt + (xs.map fun x => (f x).toInt).sum) (Words.int64End - 1) := by
  induction xs generalizing start with
  | nil =>
      have := start.toInt_lt
      simp only [List.foldl_nil, List.map_nil, List.sum_nil, int64End_eq]
      omega
  | cons x xs ih =>
      -- a sum that was cut stays at the end of the range, since what follows is not negative
      have hx := nonneg x (by simp)
      have hxs : 0 ≤ (xs.map fun x => (f x).toInt).sum :=
        List.sum_nonneg (by simpa using fun y hy => nonneg y (by simp [hy]))
      have hadd : (add start (f x)).toInt = min (start.toInt + (f x).toInt) (Words.int64End - 1) := by
        rw [toInt_add, int64End_eq]
        omega
      rw [List.foldl_cons, ih (fun y hy => nonneg y (by simp [hy])) _ (by rw [hadd, int64End_eq]; omega),
        hadd, List.map_cons, List.sum_cons, int64End_eq]
      omega

end Saturating

theorem lookup_eq_some_of_mem {κ α : Type} [BEq κ] [LawfulBEq κ] {pairs : List (κ × α)}
    (distinct : (pairs.map Prod.fst).Nodup) {k : κ} {value : α} (h : (k, value) ∈ pairs) :
    pairs.lookup k = some value := by
  induction pairs with
  | nil => cases h
  | cons pair rest ih =>
      rw [List.map_cons, List.nodup_cons] at distinct
      rw [lookup_cons_eq_ite]
      rcases List.mem_cons.mp h with rfl | hrest
      · simp
      · have hne : k ≠ pair.1 := fun e => distinct.1 (e ▸ List.mem_map_of_mem hrest)
        rw [if_neg (by simpa using hne), ih distinct.2 hrest]

namespace Usage

/-- A sum over some elements, taken key by key. -/
theorem sum_map_sum_filter {α κ M : Type} [DecidableEq κ] [AddCommMonoid M] (key : α → κ) (f : α → M)
    {keys : List κ} (distinct : keys.Nodup) (xs : List α) (known : ∀ x ∈ xs, key x ∈ keys) :
    (keys.map fun k => ((xs.filter fun x => key x = k).map f).sum).sum = (xs.map f).sum := by
  induction xs with
  | nil => simp
  | cons x xs ih =>
      have hstep : ∀ k, (((x :: xs).filter fun x => key x = k).map f).sum =
          (if k = key x then f x else 0) + ((xs.filter fun x => key x = k).map f).sum := by
        intro k
        by_cases h : key x = k
        · simp [h]
        · have hne : k ≠ key x := fun e => h e.symm
          simp [h, hne]
      have hone : (keys.map fun k => if k = key x then f x else 0).sum = f x := by
        rw [List.sum_map_eq_nsmul_single (key x) _ fun k hk _ => if_neg hk,
          List.count_eq_one_of_mem distinct (known x (by simp)), one_nsmul, if_pos rfl]
      simp only [hstep, List.sum_map_add, hone, ih fun x hx => known x (by simp [hx]),
        List.map_cons, List.sum_cons]

/-- The call counts of some records: one for each model, the greatest first; of equal ones that of
the model that appears first. -/
structure CountsCalls (rows : List UsageRecord) (counts : List CallCount) : Prop where
  nodup : (counts.map CallCount.model).Nodup
  mem_iff : ∀ model, model ∈ counts.map CallCount.model ↔ model ∈ rows.map UsageRecord.modelName
  value : ∀ c ∈ counts, c.value = callsOf rows c.model
  ordered : counts.Pairwise fun c d => d.value < c.value ∨ c.value = d.value ∧
    (rows.map UsageRecord.modelName).idxOf c.model < (rows.map UsageRecord.modelName).idxOf d.model

def CallCount.descend (c d : CallCount) : Bool := decide (d.value ≤ c.value)

theorem pairwise_descend {names : List String} {counts : List CallCount}
    (ordered : counts.Pairwise fun c d => names.idxOf c.model < names.idxOf d.model) :
    (counts.mergeSort CallCount.descend).Pairwise fun c d => d.value < c.value ∨
      c.value = d.value ∧ names.idxOf c.model < names.idxOf d.model := by
  have trans : ∀ c d e, CallCount.descend c d → CallCount.descend d e → CallCount.descend c e := by
    intro c d e hcd hde
    simp only [CallCount.descend, decide_eq_true_eq] at hcd hde ⊢
    exact Int64.le_trans hde hcd
  have total : ∀ c d, CallCount.descend c d || CallCount.descend d c := by
    intro c d
    simpa [CallCount.descend] using Int64.le_total d.value c.value
  refine (pairwise_mergeSort_or trans total ordered).imp ?_
  intro c d ⟨hle, hplace⟩
  simp only [CallCount.descend, decide_eq_true_eq, decide_eq_false_iff_not] at hle hplace
  by_cases heq : c.value = d.value
  · refine .inr ⟨heq, hplace.resolve_left ?_⟩
    rw [heq]
    exact fun hback => hback (Int64.le_refl d.value)
  · exact .inl (Int64.lt_of_le_of_ne hle (Ne.symm heq))

theorem Tally.Describes.countsCalls {a : Aggregation} {tally : Tally} {rows : List UsageRecord}
    (h : tally.Describes a rows) : CountsCalls rows (Aggregation.callCounts tally) := by
  have hperm : (Aggregation.callCounts tally).Perm (tally.calls.map fun entry => ⟨entry.1, entry.2⟩) :=
    List.mergeSort_perm _ _
  -- before the sort by value the models stand in the order in which they first appear
  have hmodels : ((Aggregation.callCounts tally).map CallCount.model).Perm tally.models := by
    refine (hperm.map CallCount.model).trans (List.Perm.of_eq ?_)
    rw [List.map_map]
    rfl
  constructor
  · exact hmodels.nodup_iff.mpr h.models.nodup
  · intro model
    rw [hmodels.mem_iff, h.models.mem_iff]
  · intro c hc
    obtain ⟨⟨model, calls⟩, hmem, rfl⟩ := List.mem_map.mp (hperm.mem_iff.mp hc)
    rw [← h.calls, lookup_eq_some_of_mem h.models.nodup hmem]
    rfl
  · refine pairwise_descend (List.pairwise_map.mpr ?_)
    exact (List.pairwise_map (f := Prod.fst)).mp h.models.ordered

/-- The exact number of calls of a model, which does not depend on the order of the records. -/
def exactCalls (records : List UsageRecord) (model : String) : Int :=
  ((records.filter fun r => r.modelName = model).map fun r => r.count.toInt).sum

theorem toInt_callsOf {rows : List UsageRecord}
    (small : (rows.map fun r => r.count.toInt.natAbs).sum < Words.int64End) (model : String) :
    (callsOf rows model).toInt = exactCalls rows model := by
  have hle : ((rows.filter fun r => r.modelName = model).map fun r => r.count.toInt.natAbs).sum ≤
      (rows.map fun r => r.count.toInt.natAbs).sum :=
    (List.filter_sublist.map _).sum_le_sum (by simp)
  rw [callsOf, Saturating.toInt_foldl_add UsageRecord.count _ _ (by simp; omega)]
  simp [exactCalls]

theorem toInt_requests {rows : List UsageRecord}
    (small : (rows.map fun r => r.count.toInt.natAbs).sum < Words.int64End) :
    (sumsOf rows).requests.toInt = (rows.map fun r => r.count.toInt).sum := by
  rw [sumsOf, Saturating.toInt_foldl_add UsageRecord.count rows _ (by simpa using small)]
  simp

theorem CountsCalls.sum_values {rows : List UsageRecord} {counts : List CallCount}
    (h : CountsCalls rows counts)
    (small : (rows.map fun r => r.count.toInt.natAbs).sum < Words.int64End) :
    (counts.map fun c => c.value.toInt).sum = (sumsOf rows).requests.toInt := by
  have hvalue : ∀ c ∈ counts, c.value.toInt = exactCalls rows c.model := by
    intro c hc
    rw [h.value c hc, toInt_callsOf small]
  rw [List.map_congr_left hvalue, toInt_requests small,
    ← sum_map_sum_filter UsageRecord.modelName (fun r => r.count.toInt) h.nodup rows, List.map_map]
  · rfl
  · intro r hr
    exact (h.mem_iff _).mpr (List.mem_map_of_mem hr)

/-- The greatest number that a sum can hold. -/
def greatestSum : Int := Words.int64End - 1

theorem toInt_callsOf_of_nonneg {rows : List UsageRecord} (nonneg : ∀ r ∈ rows, 0 ≤ r.count)
    (model : String) : (callsOf rows model).toInt = min (exactCalls rows model) greatestSum := by
  have hcounts : ∀ r ∈ rows.filter fun r => r.modelName = model, 0 ≤ r.count.toInt := by
    intro r hr
    exact Int64.le_iff_toInt_le.mp (nonneg r (List.mem_of_mem_filter hr))
  rw [callsOf, Saturating.toInt_foldl_add_of_nonneg UsageRecord.count _ hcounts _ (by simp)]
  simp [exactCalls, greatestSum]

theorem toInt_requests_of_nonneg {rows : List UsageRecord} (nonneg : ∀ r ∈ rows, 0 ≤ r.count) :
    (sumsOf rows).requests.toInt = min (rows.map fun r => r.count.toInt).sum greatestSum := by
  have hcounts : ∀ r ∈ rows, 0 ≤ r.count.toInt := fun r hr =>
    Int64.le_iff_toInt_le.mp (nonneg r hr)
  rw [sumsOf, Saturating.toInt_foldl_add_of_nonneg UsageRecord.count _ hcounts _ (by simp)]
  simp [greatestSum]

theorem Dashboard.callCounts_of_build? {a : Aggregation} {session later : Palette.Session}
    {records : List UsageRecord} {dashboard : Dashboard}
    (built : Dashboard.build? a session records = some (dashboard, later)) :
    CountsCalls (a.ordered records) dashboard.callCounts := by
  obtain ⟨tally, known, shown⟩ := exists_tally_of_build? built
  exact shown.callCounts ▸ known.countsCalls

/-- The call counts of a dashboard are running sums by model.  They add up to the number of requests
while nothing saturates, and without negative counts every sum is exact up to the greatest number. -/
theorem Dashboard.callCounts_sum_by_model (a : Aggregation) (session later : Palette.Session)
    (records : List UsageRecord) (dashboard : Dashboard)
    (built : Dashboard.build? a session records = some (dashboard, later)) :
    ∃ rows : List UsageRecord,
      IsByTime (a.present records) rows ∧ CountsCalls rows dashboard.callCounts ∧
        (((a.present records).map fun r => r.count.toInt.natAbs).sum < Words.int64End →
          (dashboard.callCounts.map fun c => c.value.toInt).sum = dashboard.totals.requests.toInt) ∧
        ((∀ r ∈ a.present records, 0 ≤ r.count) →
          (∀ c ∈ dashboard.callCounts,
            c.value.toInt = min (exactCalls (a.present records) c.model) greatestSum) ∧
          dashboard.totals.requests.toInt =
            min ((a.present records).map fun r => r.count.toInt).sum greatestSum) := by
  have byTime := a.isByTime_ordered records
  have counted := callCounts_of_build? built
  refine ⟨a.ordered records, byTime, counted, ?_, ?_⟩
  · intro small
    rw [totals_of_build? built]
    exact counted.sum_values (by rwa [(byTime.perm.map _).sum_eq])
  · intro nonneg
    have hrows : ∀ r ∈ a.ordered records, 0 ≤ r.count := fun r hr =>
      nonneg r (byTime.perm.mem_iff.mp hr)
    constructor
    · intro c hc
      rw [counted.value c hc, toInt_callsOf_of_nonneg hrows, exactCalls,
        ((byTime.perm.filter _).map _).sum_eq]
      rfl
    · rw [totals_of_build? built, toInt_requests_of_nonneg hrows, (byTime.perm.map _).sum_eq]

/-- Two models with three calls between them, the later record first. -/
theorem Dashboard.callCounts_sum_by_model_of_three_calls :
    let a : Aggregation := ⟨.hour, 0, 0⟩
    let records := [⟨none, none, none, "b", 7300, 2, 0.5, 9⟩, ⟨none, none, none, "a", 7200, 1, 1.0, 8⟩]
    ∃ dashboard later, Dashboard.build? a Palette.Session.empty records = some (dashboard, later) ∧
      (∃ rows : List UsageRecord,
        IsByTime (a.present records) rows ∧ CountsCalls rows dashboard.callCounts) ∧
      (dashboard.callCounts.map fun c => c.value.toInt).sum = 3 ∧
      dashboard.totals.requests.toInt = 3 := by
  intro a records
  obtain ⟨dashboard, later, built⟩ :=
    Dashboard.exists_build? a Palette.Session.empty records (by decide) (by decide)
  obtain ⟨rows, byTime, counted, hsum, hexact⟩ := callCounts_sum_by_model _ _ _ _ _ built
  have hrequests := (hexact (by decide)).2
  exact ⟨dashboard, later, built, ⟨rows, byTime, counted⟩, (hsum (by decide)).trans hrequests, hrequests⟩

end Usage

end UsageBoard
