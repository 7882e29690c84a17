import UsageBoard.Proofs.Store.Edits
import UsageBoard.Store.Preferences

/-!
# The granularity that a store remembers

It is read back as it was put, whatever was there before.
-/

namespace UsageBoard

open UsageBoard.Store (Entries)
open UsageBoard.Usage (Granularity)

theorem Usage.Granularity.parse_name (granularity : Granularity) :
    Granularity.parse granularity.name = .ok granularity := by
  cases granularity <;> rfl

namespace Store.Entries

/-- The granularity of entries is that of a name that was put into others, or else the same as theirs. -/
theorem granularity_of_get? {entries earlier : Entries} {given : Option Granularity}
    (h : entries.get? StoreKey.granularity =
      (given.map Granularity.name).or (earlier.get? StoreKey.granularity)) (fallback : Granularity) :
    entries.granularity fallback = given.getD (earlier.granularity fallback) := by
  unfold Store.Entries.granularity
  rw [h]
  cases given with
  | none => rfl
  | some granularity => simp only [Option.map_some, Option.some_or, Granularity.parse_name]; rfl

theorem granularity_applyAll (entries : Entries) (given : Option Granularity) (fallback : Granularity) :
    (entries.applyAll (given.map rememberGranularity).toList).granularity fallback =
      given.getD (entries.granularity fallback) := by
  apply granularity_of_get?
  cases given <;> simp [get?_applyAll, latestEdit?, rememberGranularity, Edit.key, Edit.value?]

end Store.Entries

theorem LocalStore.fst_run_granularity {σ : Type} (fx : Effects (StateM σ)) (store : LocalStore)
    (fallback : Granularity) (s : σ) :
    ((store.granularity fx fallback).run s).1 = store.entries.granularity fallback := by
  unfold LocalStore.granularity
  cases store.get? StoreKey.granularity with
  | none => rfl
  | some text =>
      dsimp only
      cases Granularity.parse text <;> rfl

end UsageBoard
