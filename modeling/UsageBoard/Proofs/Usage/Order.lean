import Mathlib.Data.List.Nodup
import UsageBoard.Usage.Dashboard

/-!
# Orders of records and of models

What it is to sort records by time and to list models as they first appear, said without the
functions that do it; and what a stable sort keeps.
-/

namespace UsageBoard.Usage

section StableSort

variable {α : Type} {le : α → α → Bool}

theorem filter_mergeSort (trans : ∀ x y z, le x y → le y z → le x z)
    (total : ∀ x y, le x y || le y x) {test : α → Bool}
    (tied : ∀ x y, test x → test y → le x y) (l : List α) :
    (l.mergeSort le).filter test = l.filter test := by
  have ordered : (l.filter test).Pairwise (le · ·) := by
    refine List.Pairwise.imp_of_mem ?_ (List.pairwise_of_forall (R := fun _ _ => True) fun _ _ => trivial)
    intro x y hx hy _
    exact tied x y (List.mem_filter.mp hx).2 (List.mem_filter.mp hy).2
  have kept : (l.filter test).Sublist (l.mergeSort le) :=
    List.sublist_mergeSort trans total ordered List.filter_sublist
  have inside : (l.filter test).Sublist ((l.mergeSort le).filter test) := by
    have h := kept.filter test
    rwa [List.filter_filter, List.filter_congr (q := test) (by simp)] at h
  refine (inside.eq_of_length ?_).symm
  exact ((List.mergeSort_perm l le).filter test).length_eq.symm

/-- Elements that a stable sort may leave in any order stay in the order in which they were. -/
theorem pairwise_mergeSort_or (trans : ∀ x y z, le x y → le y z → le x z)
    (total : ∀ x y, le x y || le y x) {R : α → α → Prop} {l : List α} (ordered : l.Pairwise R) :
    (l.mergeSort le).Pairwise fun x y => le x y ∧ (le y x = false ∨ R x y) := by
  have sorted := List.pairwise_mergeSort trans total l
  rw [List.pairwise_iff_forall_sublist] at sorted ordered ⊢
  intro x y hxy
  refine ⟨sorted hxy, ?_⟩
  by_cases back : le y x
  · right
    let tied : α → Bool := fun z => le x z && le z x
    have hpair : [x, y].filter tied = [x, y] := by
      have hx : le x x := by simpa using total x x
      simp [tied, hx, back, sorted hxy]
    have hfilter : (l.mergeSort le).filter tied = l.filter tied := by
      refine filter_mergeSort trans total ?_ l
      intro u v hu hv
      simp only [tied, Bool.and_eq_true] at hu hv
      exact trans u x v hu.2 hv.1
    have hsub := hxy.filter tied
    rw [hpair, hfilter] at hsub
    exact ordered (hsub.trans List.filter_sublist)
  · left
    simpa using back

end StableSort

/-- The same records in the order of time; those of one time stay in the order in which they
came. -/
structure IsByTime (records rows : List UsageRecord) : Prop where
  perm : rows.Perm records
  sorted : rows.Pairwise fun r s => r.createdAt ≤ s.createdAt
  stable : ∀ t : Int64, (rows.filter fun r => r.createdAt = t) = records.filter fun r => r.createdAt = t

/-- The records that a dashboard is made of: an empty result is one row with nothing in it. -/
def Aggregation.present (a : Aggregation) (records : List UsageRecord) : List UsageRecord :=
  if records = [] then [UsageRecord.placeholder a.now] else records

theorem Aggregation.present_ne_nil (a : Aggregation) (records : List UsageRecord) :
    a.present records ≠ [] := by
  unfold Aggregation.present
  split <;> simp_all

theorem Aggregation.isByTime_ordered (a : Aggregation) (records : List UsageRecord) :
    IsByTime (a.present records) (a.ordered records) := by
  cases records with
  | nil => exact ⟨by simp [ordered, present], by simp [ordered], by simp [ordered, present]⟩
  | cons r rest =>
      have trans : ∀ x y z : UsageRecord, decide (x.createdAt ≤ y.createdAt) →
          decide (y.createdAt ≤ z.createdAt) → decide (x.createdAt ≤ z.createdAt) := by
        simpa using fun x y z : UsageRecord => Int64.le_trans
      have total : ∀ x y : UsageRecord, decide (x.createdAt ≤ y.createdAt) ||
          decide (y.createdAt ≤ x.createdAt) := by
        simpa using fun x y : UsageRecord => Int64.le_total x.createdAt y.createdAt
      have hordered : a.ordered (r :: rest) =
          (r :: rest).mergeSort fun r s => decide (r.createdAt ≤ s.createdAt) := rfl
      have hpresent : a.present (r :: rest) = r :: rest := by simp [present]
      rw [hordered, hpresent]
      refine ⟨List.mergeSort_perm _ _, ?_, ?_⟩
      · exact (List.pairwise_mergeSort trans total _).imp fun h => by simpa using h
      · intro t
        refine filter_mergeSort trans total ?_ _
        intro x y hx hy
        simp only [decide_eq_true_eq] at hx hy ⊢
        rw [hx, hy]
        exact Int64.le_refl t

/-- Each of some names once, in the order in which the names first appear. -/
structure IsFirstSeen (names seen : List String) : Prop where
  nodup : seen.Nodup
  mem_iff : ∀ name, name ∈ seen ↔ name ∈ names
  ordered : seen.Pairwise fun m n => names.idxOf m < names.idxOf n

theorem IsFirstSeen.nil : IsFirstSeen [] [] := ⟨List.nodup_nil, by simp, List.Pairwise.nil⟩

theorem IsFirstSeen.append {names seen : List String} (h : IsFirstSeen names seen) (name : String) :
    IsFirstSeen (names ++ [name]) (if name ∈ seen then seen else seen ++ [name]) := by
  have early : seen.Pairwise fun m n => (names ++ [name]).idxOf m < (names ++ [name]).idxOf n := by
    refine h.ordered.imp_of_mem ?_
    intro m n hm hn hlt
    rwa [List.idxOf_append_of_mem ((h.mem_iff m).mp hm), List.idxOf_append_of_mem ((h.mem_iff n).mp hn)]
  by_cases there : name ∈ seen
  · rw [if_pos there]
    refine ⟨h.nodup, ?_, early⟩
    intro n
    simp only [List.mem_append, List.mem_singleton, h.mem_iff]
    constructor
    · exact Or.inl
    · rintro (hn | rfl)
      · exact hn
      · exact (h.mem_iff n).mp there
  · rw [if_neg there]
    refine ⟨?_, by simp [h.mem_iff], ?_⟩
    · refine List.nodup_append.mpr ⟨h.nodup, List.nodup_singleton name, ?_⟩
      rintro m hm n hn rfl
      exact there (List.mem_singleton.mp hn ▸ hm)
    · refine List.pairwise_append.mpr ⟨early, by simp, ?_⟩
      intro m hm n hn
      obtain rfl := List.mem_singleton.mp hn
      have absent : n ∉ names := fun hn => there ((h.mem_iff n).mpr hn)
      rw [List.idxOf_append_of_mem ((h.mem_iff m).mp hm), List.idxOf_append_of_notMem absent]
      exact Nat.lt_add_right _ (List.idxOf_lt_length_of_mem ((h.mem_iff m).mp hm))

end UsageBoard.Usage
