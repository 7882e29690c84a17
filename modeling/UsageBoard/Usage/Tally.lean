import UsageBoard.Pairs
import UsageBoard.Saturating
import UsageBoard.Usage.Granularity
import UsageBoard.Usage.Record

/-!
# One pass over usage records

A `Tally` is what is known of usage records after some of them: the models and their calls, the
quota of each bucket and model, the buckets, and the sums over all.
-/

namespace UsageBoard.Usage

structure Totals where
  /-- In quota units. -/
  quota : Float
  tokens : Int64
  requests : Int64

structure Aggregation where
  granularity : Granularity
  /-- Seconds east of UTC, for the labels. -/
  offset : Int
  /-- The time of the row that stands for an empty result. -/
  now : Int64

/-- The start of the bucket of a record, if it is in the range of times. -/
def Aggregation.bucket? (a : Aggregation) (r : UsageRecord) : Option Int64 :=
  a.granularity.truncate? r.createdAt

/-- Puts a point in time into its place in the order of time, unless it is there. -/
def insertTime (time : Int64) : List Int64 → List Int64
  | [] => [time]
  | other :: rest =>
      if time < other then time :: other :: rest
      else if time = other then other :: rest
      else other :: insertTime time rest

theorem mem_insertTime {time t : Int64} {times : List Int64} :
    t ∈ insertTime time times ↔ t = time ∨ t ∈ times := by
  induction times with
  | nil => simp [insertTime]
  | cons other rest ih =>
      simp only [insertTime]
      split
      · simp
      · split
        · rename_i h
          simp [h]
        · simp only [List.mem_cons, ih]
          exact or_left_comm

theorem pairwise_insertTime (time : Int64) {times : List Int64}
    (sorted : times.Pairwise (· < ·)) : (insertTime time times).Pairwise (· < ·) := by
  induction times with
  | nil => simp [insertTime]
  | cons other rest ih =>
      have ⟨first, later⟩ := List.pairwise_cons.mp sorted
      simp only [insertTime]
      split
      · rename_i hlt
        refine List.pairwise_cons.mpr ⟨?_, sorted⟩
        intro t ht
        rcases List.mem_cons.mp ht with rfl | ht
        · exact hlt
        · exact Int64.lt_trans hlt (first t ht)
      · split
        · exact sorted
        · rename_i hge hne
          refine List.pairwise_cons.mpr ⟨?_, ih later⟩
          intro t ht
          rcases mem_insertTime.mp ht with rfl | ht
          · exact Int64.lt_of_le_of_ne (Int64.not_lt.mp hge) (Ne.symm hne)
          · exact first t ht

def timesOnce (times : List Int64) : List Int64 :=
  times.foldl (fun seen time => insertTime time seen) []

theorem mem_foldl_insertTime {t : Int64} {times seen : List Int64} :
    t ∈ times.foldl (fun seen time => insertTime time seen) seen ↔ t ∈ seen ∨ t ∈ times := by
  induction times generalizing seen with
  | nil => simp
  | cons time rest ih =>
      simp only [List.foldl_cons, ih, mem_insertTime, List.mem_cons]
      rw [or_assoc, or_left_comm]

theorem pairwise_foldl_insertTime {times seen : List Int64} (sorted : seen.Pairwise (· < ·)) :
    (times.foldl (fun seen time => insertTime time seen) seen).Pairwise (· < ·) := by
  induction times generalizing seen with
  | nil => exact sorted
  | cons time rest ih => exact ih (pairwise_insertTime time sorted)

@[simp] theorem mem_timesOnce {t : Int64} {times : List Int64} : t ∈ timesOnce times ↔ t ∈ times := by
  simp [timesOnce, mem_foldl_insertTime]

theorem pairwise_timesOnce (times : List Int64) : (timesOnce times).Pairwise (· < ·) :=
  pairwise_foldl_insertTime List.Pairwise.nil

structure Tally where
  /-- The calls of each model; the models stand in the order in which they first appear. -/
  calls : List (String × Int64)
  cells : List ((Int64 × String) × Float)
  /-- The buckets in which there are records, in the order of time. -/
  buckets : List Int64
  totals : Totals

namespace Tally

def empty : Tally := ⟨[], [], [], ⟨0.0, 0, 0⟩⟩

/-- Takes in a record of the bucket that starts at a time. -/
def add (tally : Tally) (time : Int64) (r : UsageRecord) : Tally where
  calls := accumulate 0 Saturating.add r.modelName r.count tally.calls
  cells := accumulate 0.0 (· + ·) (time, r.modelName) r.quota tally.cells
  buckets := insertTime time tally.buckets
  totals :=
    ⟨tally.totals.quota + r.quota, Saturating.add tally.totals.tokens r.tokenUsed,
      Saturating.add tally.totals.requests r.count⟩

def add? (a : Aggregation) (tally : Tally) (r : UsageRecord) : Option Tally :=
  (a.bucket? r).map fun time => tally.add time r

/-- There is no tally of records of which one lies in a bucket without a start. -/
def ofRecords? (a : Aggregation) (records : List UsageRecord) : Option Tally :=
  records.foldlM (add? a) empty

/-- The models in the order in which they first appear. -/
def models (tally : Tally) : List String := tally.calls.map Prod.fst

def usage (tally : Tally) (time : Int64) (model : String) : Float :=
  (tally.cells.lookup (time, model)).getD 0.0

end Tally

end UsageBoard.Usage
