import UsageBoard.Proofs.Usage.Order

/-!
# What a tally knows

A tally of some records holds the sums that a reader would form from all of them at once.  The
proof takes in one record at a time.  There is a tally just if each record has a bucket.

## Main statements

* `Tally.describes_ofRecords?`: what a tally of some records holds.
* `Tally.isSome_ofRecords?_iff`: when there is one.
* `Dashboard.exists_tally_of_build?`: a dashboard shows the tally of its records by time.
-/

namespace UsageBoard.Usage

theorem mapM_eq_some_iff {α β : Type} {f : α → Option β} {xs : List α} {ys : List β} :
    xs.mapM f = some ys ↔ xs.map f = ys.map some := by
  induction xs generalizing ys with
  | nil => cases ys <;> simp
  | cons x xs ih =>
      simp only [List.mapM_cons, Option.bind_eq_bind, Option.bind_eq_some_iff, Option.pure_def,
        Option.some.injEq, ih]
      constructor
      · rintro ⟨y, hy, others, hothers, rfl⟩
        rw [List.map_cons, List.map_cons, hy, hothers]
      · intro h
        obtain ⟨y, others, rfl, hy, hothers⟩ := List.map_eq_cons_iff.mp h.symm
        exact ⟨y, hy.symm, others, hothers.symm, rfl⟩

theorem isSome_mapM_iff {α β : Type} {f : α → Option β} {xs : List α} :
    (xs.mapM f).isSome ↔ ∀ x ∈ xs, (f x).isSome := by
  induction xs with
  | nil => simp
  | cons x xs ih =>
      rw [List.forall_mem_cons, ← ih, List.mapM_cons]
      cases f x <;> cases xs.mapM f <;> simp

section Buckets

variable {a : Aggregation} {rows : List UsageRecord} {starts : List Int64}

/-- The starts of the buckets of some records, if all of them have one. -/
def Aggregation.buckets? (a : Aggregation) (rows : List UsageRecord) : Option (List Int64) :=
  rows.mapM a.bucket?

theorem mem_of_buckets? (h : a.buckets? rows = some starts) {t : Int64} :
    t ∈ starts ↔ ∃ r ∈ rows, a.bucket? r = some t := by
  have all : rows.map a.bucket? = starts.map some := mapM_eq_some_iff.mp h
  rw [← List.mem_map, all]
  simp

theorem isSome_buckets?_iff : (a.buckets? rows).isSome ↔ ∀ r ∈ rows, (a.bucket? r).isSome :=
  isSome_mapM_iff

end Buckets

/-- The quotas that a model consumed in a bucket, added in the order of the records. -/
def quotaIn (a : Aggregation) (rows : List UsageRecord) (time : Int64) (model : String) : Float :=
  (rows.filter fun r => a.bucket? r = some time ∧ r.modelName = model).foldl
    (fun sum r => sum + r.quota) 0.0

def callsOf (rows : List UsageRecord) (model : String) : Int64 :=
  (rows.filter fun r => r.modelName = model).foldl (fun sum r => Saturating.add sum r.count) 0

def sumsOf (rows : List UsageRecord) : Totals where
  quota := rows.foldl (fun sum r => sum + r.quota) 0.0
  tokens := rows.foldl (fun sum r => Saturating.add sum r.tokenUsed) 0
  requests := rows.foldl (fun sum r => Saturating.add sum r.count) 0

structure Tally.Describes (a : Aggregation) (tally : Tally) (rows : List UsageRecord) : Prop where
  models : IsFirstSeen (rows.map UsageRecord.modelName) tally.models
  calls : ∀ model, (tally.calls.lookup model).getD 0 = callsOf rows model
  usage : ∀ time model, tally.usage time model = quotaIn a rows time model
  sorted : tally.buckets.Pairwise (· < ·)
  bucketed : ∀ r ∈ rows, (a.bucket? r).isSome
  mem_buckets : ∀ t, t ∈ tally.buckets ↔ ∃ r ∈ rows, a.bucket? r = some t
  totals : tally.totals = sumsOf rows

namespace Tally

theorem models_add (tally : Tally) (time : Int64) (r : UsageRecord) :
    (tally.add time r).models =
      if r.modelName ∈ tally.models then tally.models else tally.models ++ [r.modelName] :=
  map_fst_accumulate tally.calls

theorem usage_add (tally : Tally) (start : Int64) (r : UsageRecord) (time : Int64) (model : String) :
    (tally.add start r).usage time model =
      if start = time ∧ r.modelName = model then tally.usage time model + r.quota
      else tally.usage time model := by
  simp only [usage, add, lookup_accumulate, beq_iff_eq, Prod.mk.injEq]
  by_cases h : start = time ∧ r.modelName = model
  · obtain ⟨rfl, rfl⟩ := h
    simp
  · rw [if_neg h, if_neg fun e : time = start ∧ model = r.modelName => h ⟨e.1.symm, e.2.symm⟩]

theorem calls_add (tally : Tally) (time : Int64) (r : UsageRecord) (model : String) :
    ((tally.add time r).calls.lookup model).getD 0 =
      if r.modelName = model then Saturating.add ((tally.calls.lookup model).getD 0) r.count
      else (tally.calls.lookup model).getD 0 := by
  simp only [add, lookup_accumulate, beq_iff_eq]
  by_cases h : r.modelName = model
  · subst h
    simp
  · rw [if_neg h, if_neg fun e : model = r.modelName => h e.symm]

variable {a : Aggregation} {tally : Tally} {rows : List UsageRecord}

theorem describes_empty (a : Aggregation) : empty.Describes a [] where
  models := IsFirstSeen.nil
  calls _ := rfl
  usage _ _ := rfl
  sorted := List.Pairwise.nil
  bucketed := by simp
  mem_buckets := by simp [empty]
  totals := rfl

/-- Taking in a record keeps the tally true of the records taken in. -/
theorem Describes.add (h : tally.Describes a rows) {r : UsageRecord} {start : Int64}
    (bucket : a.bucket? r = some start) : (tally.add start r).Describes a (rows ++ [r]) where
  models := by
    rw [models_add, List.map_append]
    exact h.models.append r.modelName
  calls := by
    intro model
    rw [calls_add, h.calls]
    by_cases hr : r.modelName = model <;> simp [callsOf, List.filter_append, hr]
  usage := by
    intro time model
    rw [usage_add, h.usage]
    by_cases hr : start = time ∧ r.modelName = model
    · simp [quotaIn, List.filter_append, bucket, hr.1, hr.2]
    · rw [if_neg hr]
      simp only [quotaIn, List.filter_append, List.filter_singleton, bucket, Option.some.injEq,
        decide_eq_false hr, cond_false, List.append_nil]
  sorted := pairwise_insertTime start h.sorted
  bucketed := by
    intro s hs
    rcases List.mem_append.mp hs with hs | hs
    · exact h.bucketed s hs
    · rw [List.mem_singleton.mp hs, bucket, Option.isSome_some]
  mem_buckets := by
    intro t
    refine mem_insertTime.trans ?_
    simp [h.mem_buckets, or_and_right, exists_or, bucket, eq_comm, or_comm]
  totals := by
    simp only [Tally.add, h.totals, sumsOf, List.foldl_append, List.foldl_cons, List.foldl_nil]

theorem describes_foldlM (h : tally.Describes a rows) {more : List UsageRecord} {later : Tally}
    (taken : more.foldlM (add? a) tally = some later) : later.Describes a (rows ++ more) := by
  induction more generalizing tally rows with
  | nil =>
      cases taken
      simpa using h
  | cons r more ih =>
      rw [List.foldlM_cons, Option.bind_eq_bind, Option.bind_eq_some_iff] at taken
      obtain ⟨next, first, taken⟩ := taken
      obtain ⟨start, bucket, rfl⟩ := Option.map_eq_some_iff.mp first
      simpa using ih (h.add bucket) taken

/-- One pass over some records gathers what there is to know of them. -/
theorem describes_ofRecords? (taken : ofRecords? a rows = some tally) : tally.Describes a rows :=
  describes_foldlM (describes_empty a) taken

theorem isSome_foldlM_iff : (rows.foldlM (add? a) tally).isSome ↔ ∀ r ∈ rows, (a.bucket? r).isSome := by
  induction rows generalizing tally with
  | nil => simp
  | cons r rows ih =>
      rw [List.foldlM_cons, List.forall_mem_cons, add?]
      cases a.bucket? r with
      | none => simp
      | some start => simpa using ih

theorem isSome_ofRecords?_iff : (ofRecords? a rows).isSome ↔ ∀ r ∈ rows, (a.bucket? r).isSome :=
  isSome_foldlM_iff

end Tally

/-! ## What a dashboard shows -/

namespace Dashboard

variable {a : Aggregation} {session later : Palette.Session} {dashboard : Dashboard}

/-- The parts of a dashboard and the session after it, each from the tally. -/
structure Shows (dashboard : Dashboard) (a : Aggregation) (session : Palette.Session) (tally : Tally)
    (later : Palette.Session) : Prop where
  consumption : a.consumption? tally = some dashboard.consumption
  callCounts : dashboard.callCounts = Aggregation.callCounts tally
  modelColors : dashboard.modelColors =
    (session.resolveAll tally.models).1.mergeSort fun p q => decide (p.1 ≤ q.1)
  totals : dashboard.totals = tally.totals
  session : later = (session.resolveAll tally.models).2

theorem shows_of_ofTally? {tally : Tally} (shown : ofTally? a session tally = some (dashboard, later)) :
    dashboard.Shows a session tally later := by
  obtain ⟨consumption, built, hpair⟩ := Option.map_eq_some_iff.mp shown
  cases hpair
  exact ⟨built, rfl, rfl, rfl, rfl⟩

theorem exists_tally_of_build? {records : List UsageRecord}
    (built : build? a session records = some (dashboard, later)) :
    ∃ tally : Tally, tally.Describes a (a.ordered records) ∧ dashboard.Shows a session tally later := by
  obtain ⟨tally, taken, shown⟩ := Option.bind_eq_some_iff.mp built
  exact ⟨tally, Tally.describes_ofRecords? taken, shows_of_ofTally? shown⟩

end Dashboard

end UsageBoard.Usage
