import Mathlib.Data.List.TakeWhile

/-!
# Runs of characters

A run of characters at the front of a text ends before a character that does not belong to it, whatever
follows there.
-/

namespace UsageBoard.Text

variable {p : Char → Bool} {rest : List Char}

theorem takeWhile_append_of_stop (stop : ∀ c ∈ rest.head?, p c = false) (cs : List Char) :
    (cs ++ rest).takeWhile p = cs.takeWhile p ∧ (cs ++ rest).dropWhile p = cs.dropWhile p ++ rest := by
  induction cs with
  | nil =>
      cases rest with
      | nil => exact ⟨rfl, rfl⟩
      | cons c rest =>
          have hc := stop c rfl
          simp [hc]
  | cons c cs ih =>
      by_cases hc : p c
      · simp [hc, ih]
      · simp [hc]

theorem takeWhile_of_run {run : List Char} (inside : ∀ c ∈ run, p c)
    (stop : ∀ c ∈ rest.head?, p c = false) :
    (run ++ rest).takeWhile p = run ∧ (run ++ rest).dropWhile p = rest := by
  obtain ⟨front, back⟩ := takeWhile_append_of_stop stop run
  rw [front, back, List.takeWhile_eq_self_iff.mpr inside, List.dropWhile_eq_nil_iff.mpr inside]
  exact ⟨rfl, rfl⟩

/-- Dropping what would be filtered out anyway makes no difference. -/
theorem filter_dropWhile {p q : Char → Bool} (apart : ∀ c, p c → q c = false) (cs : List Char) :
    (cs.dropWhile p).filter q = cs.filter q := by
  induction cs with
  | nil => rfl
  | cons c cs ih =>
      by_cases hc : p c
      · rw [List.dropWhile_cons_of_pos hc, ih, List.filter_cons_of_neg (by simp [apart c hc])]
      · rw [List.dropWhile_cons_of_neg hc]

end UsageBoard.Text
