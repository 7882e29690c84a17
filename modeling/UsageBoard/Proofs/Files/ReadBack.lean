import Mathlib.Tactic.SplitIfs
import UsageBoard.Files.Tree
import UsageBoard.Pairs

/-!
# Files that were written

Main statement: a file that could be written is read back by the same path (`read_of_write`).
-/

namespace UsageBoard.Files.Tree

variable {tree later : Tree} {place : Place} {entry : Entry}

theorem at?_root (tree : Tree) : tree.at? [] = some .folder := rfl

theorem at?_put (inside : place ≠ []) (other : Place) :
    (tree.put place entry).at? other = if other = place then some entry else tree.at? other := by
  unfold at? put
  by_cases hroot : other = []
  · subst hroot
    rw [if_neg (Ne.symm inside)]
    rfl
  · have hne : other.isEmpty = false := by simpa using hroot
    simp only [hne, Bool.false_eq_true, if_false]
    rw [lookup_cons_eq_ite]
    by_cases h : other = place
    · simp [h]
    · rw [lookup_filter_ne]
      simp [h]

/-- What is put where no folder was leaves every way open that was open. -/
theorem follow_put (inside : place ≠ []) (free : tree.at? place ≠ some .folder) {start target : Place}
    {names : List String} (h : tree.follow start names = .ok target) :
    (tree.put place entry).follow start names = .ok target := by
  induction names generalizing start with
  | nil => exact h
  | cons name names ih =>
      unfold follow at h ⊢
      cases hstart : tree.at? start with
      | none => simp [hstart] at h
      | some found =>
          cases found with
          | file contents => simp [hstart] at h
          | folder =>
              have hne : start ≠ place := fun e => free (e ▸ hstart)
              rw [hstart] at h
              rw [at?_put inside, if_neg hne, hstart]
              dsimp only at h ⊢
              split_ifs at h ⊢ with hdot hup hlong
              · exact ih h
              · exact ih h
              · exact ih h

theorem locate_put (inside : place ≠ []) (free : tree.at? place ≠ some .folder) {here target : Place}
    {path : String} (h : tree.locate here path = .ok target) :
    (tree.put place entry).locate here path = .ok target := by
  unfold locate at h ⊢
  split at h
  · cases h
  · split at h
    · cases h
    · rename_i hempty hnul
      rw [if_neg hempty, if_neg hnul]
      exact follow_put inside free h

theorem inside_of_free (free : tree.at? place ≠ some .folder) : place ≠ [] := by
  rintro rfl
  exact free tree.at?_root

/-- A file is written to a place where no folder is. -/
theorem write_eq_ok {here : Place} {path : String} {contents : ByteArray}
    (h : tree.write here path contents = .ok later) :
    ∃ place, tree.locate here path = .ok place ∧ tree.at? place ≠ some .folder ∧
      later = tree.put place (.file contents) := by
  unfold write at h
  cases hlocate : tree.locate here path with
  | error fault =>
      rw [hlocate] at h
      dsimp only at h
      split at h <;> cases h
  | ok place =>
      rw [hlocate] at h
      dsimp only at h
      split at h
      · cases h
      · rename_i free
        exact ⟨place, rfl, free, (Except.ok.inj h).symm⟩

theorem find?_of_locate {here : Place} {path : String} (h : tree.locate here path = .ok place)
    (there : tree.at? place = some entry) : tree.find? here path = .ok entry := by
  simp only [find?, h, bind, Except.bind, there]
  rfl

theorem read_of_write {here : Place} {path : String} {contents : ByteArray}
    (h : tree.write here path contents = .ok later) : later.read here path = .ok contents := by
  obtain ⟨place, hlocate, free, rfl⟩ := write_eq_ok h
  have inside := inside_of_free free
  rw [read, find?_of_locate (locate_put inside free hlocate) ((at?_put inside place).trans (if_pos rfl))]
  rfl

end UsageBoard.Files.Tree
