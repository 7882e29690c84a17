import UsageBoard.Proofs.Store.Durability

/-!
# Edits of a store

Entries are what is found in them, and edits change what is found at their own keys.
-/

namespace UsageBoard

open UsageBoard.Store (Edit Entries run_edit)

namespace Store.Entries

variable {one other : Entries} {edits : List Edit} {key : String}

theorem mem_pairs_iff (entries : Entries) (key value : String) :
    (key, value) ∈ entries.pairs ↔ entries.get? key = some value := by
  rw [get?, List.lookup_eq_some_iff]
  constructor
  · intro there
    obtain ⟨earlier, later, hsplit⟩ := List.append_of_mem there
    refine ⟨earlier, later, hsplit, ?_⟩
    intro pair hpair
    have ordered : AreOrdered (earlier ++ (key, value) :: later) := hsplit ▸ entries.ordered
    have less : pair.1 < key := (List.pairwise_append.mp ordered).2.2 pair hpair _ List.mem_cons_self
    simpa using (String.ne_of_lt less).symm
  · rintro ⟨earlier, later, hsplit, -⟩
    simp [hsplit]

theorem nodup_pairs (entries : Entries) : entries.pairs.Nodup := by
  refine entries.ordered.imp ?_
  rintro one _ less rfl
  exact String.lt_irrefl one.1 less

theorem ext_get? (same : ∀ key, one.get? key = other.get? key) : one = other := by
  have members : ∀ pair, pair ∈ one.pairs ↔ pair ∈ other.pairs := by
    rintro ⟨key, value⟩
    rw [mem_pairs_iff, mem_pairs_iff, same]
  have perm := (List.perm_ext_iff_of_nodup one.nodup_pairs other.nodup_pairs).mpr members
  refine Entries.ext (perm.eq_of_pairwise ?_ one.ordered other.ordered)
  intro first second _ _ less greater
  exact absurd greater (String.lt_asymm less)

theorem applyAll_append (entries : Entries) (edits later : List Edit) :
    entries.applyAll (edits ++ later) = (entries.applyAll edits).applyAll later :=
  List.foldl_append

theorem get?_applyAll_of_forall_ne (entries : Entries) (apart : ∀ edit ∈ edits, edit.key ≠ key) :
    (entries.applyAll edits).get? key = entries.get? key := by
  have none : latestEdit? key edits = none := by
    rw [latestEdit?, List.getLast?_eq_none_iff, List.filter_eq_nil_iff]
    intro edit hedit
    simpa using apart edit hedit
  rw [get?_applyAll, none]

/-- The same edits leave the same at a key where the same was before. -/
theorem get?_applyAll_congr (same : one.get? key = other.get? key) :
    (one.applyAll edits).get? key = (other.applyAll edits).get? key := by
  rw [get?_applyAll, get?_applyAll, same]

end Store.Entries

namespace LocalStore

variable {σ : Type} (fx : Effects (StateM σ)) (store : LocalStore)

/-- Whether or not it can be written, an edit changes the store. -/
theorem snd_run_edit (change : Edit) (s : σ) :
    ((store.edit fx change).run s).1.2 = ⟨store.path, store.entries.apply change⟩ := by
  obtain ⟨_ | path, entries⟩ := store
  · rfl
  · rw [run_edit]
    split <;> rfl

theorem fst_run_editOrWarn (change : Edit) (s : σ) :
    ((store.editOrWarn fx change).run s).1 = ⟨store.path, store.entries.apply change⟩ := by
  have edited := store.snd_run_edit fx change s
  simp only [editOrWarn, run_bind_eq]
  generalize (store.edit fx change).run s = made at edited
  obtain ⟨⟨_ | _, _⟩, _⟩ := made <;> exact edited

theorem fst_run_editAll (edits : List Edit) (s : σ) :
    ((store.editAll fx edits).run s).1 = ⟨store.path, store.entries.applyAll edits⟩ := by
  induction edits generalizing store s with
  | nil => rfl
  | cons change rest ih =>
      simp only [editAll, run_bind_eq, ih, fst_run_editOrWarn]
      rfl

end LocalStore

end UsageBoard
