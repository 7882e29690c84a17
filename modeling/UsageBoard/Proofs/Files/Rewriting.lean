import Mathlib.Data.List.DropRight
import UsageBoard.Proofs.Files.Growth
import UsageBoard.Proofs.Text.Lines

/-!
# Files that can be written again

Main statement: a file that can be written, with the folders on the way to it, can be written any number
of times, and is read back each time (`CanWrite.again`).
-/

namespace UsageBoard.Files.Tree

variable {here place : Place} {path : String} {tree later : Tree}

/-! ## Slashes at the end of a path -/

/-- Between slashes there are no names. -/
theorem filter_parts_slashes {slashes : List Char} (h : ∀ c ∈ slashes, c = '/') :
    ((Text.parts '/' slashes).filter fun name => !name.isEmpty) = [] := by
  induction slashes with
  | nil => rfl
  | cons c rest ih =>
      obtain ⟨rfl, others⟩ := List.forall_mem_cons.mp h
      rw [Text.parts, if_pos rfl, List.filter_cons_of_neg (by simp), ih others]

/-- A path that loses something at its end is what is left of it, and slashes. -/
theorem exists_slashes {path : String} (h : withoutEnd path ≠ path) :
    ∃ slashes : List Char, (∀ c ∈ slashes, c = '/') ∧
      path.toList = (withoutEnd path).toList ++ '/' :: slashes ∧
      (withoutEnd path).toList ≠ [] ∧ (withoutEnd path).toList.getLast? ≠ some '/' := by
  have hsplit := List.rdropWhile_append_rtakeWhile (p := (· == '/')) (l := path.toList)
  have hslash : ∀ c ∈ path.toList.rtakeWhile (· == '/'), c = '/' :=
    fun c hc => by simpa using List.mem_rtakeWhile_imp hc
  have hlast := List.rdropWhile_last_not (· == '/') path.toList
  have hstem : withoutEnd path = String.ofList (path.toList.rdropWhile (· == '/')) ∧
      path.toList.rdropWhile (· == '/') ≠ [] := by
    unfold withoutEnd List.rdropWhile at *
    generalize path.toList.reverse.dropWhile (· == '/') = rest at *
    cases rest with
    | nil => exact absurd rfl h
    | cons c rest => exact ⟨rfl, by simp⟩
  obtain ⟨hstem, nonempty⟩ := hstem
  rw [hstem] at h ⊢
  rw [String.toList_ofList]
  generalize path.toList.rdropWhile (· == '/') = stem at *
  generalize path.toList.rtakeWhile (· == '/') = slashes at *
  cases slashes with
  | nil =>
      refine absurd ?_ h
      rw [List.append_nil] at hsplit
      rw [hsplit, String.ofList_toList]
  | cons slash slashes =>
      obtain ⟨rfl, others⟩ := List.forall_mem_cons.mp hslash
      refine ⟨slashes, others, hsplit.symm, nonempty, ?_⟩
      rw [List.getLast?_eq_some_getLast nonempty]
      intro hend
      exact hlast nonempty (by simpa using Option.some.inj hend)

theorem namesOf_eq_append {path : String} (h : withoutEnd path ≠ path) :
    namesOf path = namesOf (withoutEnd path) ++ ["."] := by
  obtain ⟨slashes, areSlashes, hpath, -, hlast⟩ := exists_slashes h
  have hend : path.toList.getLast? = some '/' := by
    rw [hpath, List.getLast?_append, List.getLast?_cons]
    cases hmore : slashes.getLast? with
    | none => rfl
    | some c =>
        obtain rfl := areSlashes c (List.mem_of_getLast? hmore)
        rfl
  unfold namesOf
  rw [if_pos hend, if_neg hlast, hpath, Text.parts_append, List.filter_append,
    filter_parts_slashes areSlashes, List.append_nil, List.append_nil]

theorem follow_append (start : Place) (names rest : List String) :
    tree.follow start (names ++ rest) =
      (tree.follow start names).bind fun place => tree.follow place rest := by
  induction names generalizing start with
  | nil => rfl
  | cons name names ih =>
      rw [List.cons_append, follow, follow]
      cases tree.at? start with
      | none => rfl
      | some entry =>
          cases entry with
          | file contents => rfl
          | folder =>
              dsimp only
              split_ifs
              · exact ih start
              · exact ih start.dropLast
              · rfl
              · exact ih (start ++ [name])

theorem follow_self_eq_ok {target : Place} :
    tree.follow place ["."] = .ok target ↔ tree.at? place = some .folder ∧ target = place := by
  rw [follow]
  cases tree.at? place with
  | none => simp
  | some entry => cases entry <;> simp [follow, eq_comm]

theorem locate_eq_bind (h : withoutEnd path ≠ path) :
    tree.locate here path =
      (tree.locate here (withoutEnd path)).bind fun place => tree.follow place ["."] := by
  obtain ⟨slashes, areSlashes, hpath, nonempty, -⟩ := exists_slashes h
  have hstem : withoutEnd path ≠ "" := fun hempty => nonempty (by rw [hempty]; rfl)
  have hfull : path ≠ "" := by
    rintro rfl
    exact h rfl
  have hnul : path.toList.contains '\x00' = (withoutEnd path).toList.contains '\x00' := by
    have clean : '\x00' ∉ '/' :: slashes := by
      intro there
      rcases List.mem_cons.mp there with heq | hrest
      · exact absurd heq (by decide)
      · exact absurd (areSlashes _ hrest) (by decide)
    rw [Bool.eq_iff_iff, List.contains_iff_mem, List.contains_iff_mem, hpath, List.mem_append]
    exact or_iff_left clean
  have hhead : path.toList.head? = (withoutEnd path).toList.head? := by
    rw [hpath, List.head?_append_of_ne_nil _ nonempty]
  unfold locate
  rw [if_neg hstem, if_neg hfull, hnul, hhead, namesOf_eq_append h]
  split
  · rfl
  · exact follow_append _ _ _

/-- Slashes at the end of a path lead to the same folder. -/
theorem locate_withoutEnd_iff (there : tree.at? place = some .folder) :
    tree.locate here (withoutEnd path) = .ok place ↔ tree.locate here path = .ok place := by
  by_cases h : withoutEnd path = path
  · rw [h]
  · rw [locate_eq_bind h]
    cases tree.locate here (withoutEnd path) with
    | error fault => exact iff_of_false nofun nofun
    | ok found =>
        simp only [Except.bind, follow_self_eq_ok, Except.ok.injEq]
        constructor
        · rintro rfl
          exact ⟨there, rfl⟩
        · exact fun h => h.2.symm

/-! ## Folders that are there -/

theorem isFolder_iff : tree.isFolder here path ↔
    ∃ place, tree.locate here path = .ok place ∧ tree.at? place = some .folder := by
  unfold isFolder find?
  cases tree.locate here path with
  | error fault => simp [bind, Except.bind]
  | ok place =>
      simp only [bind, Except.bind, Except.ok.injEq, exists_eq_left']
      cases tree.at? place with
      | none => simp [throw, throwThe, MonadExceptOf.throw]
      | some entry => cases entry <;> simp [pure, Except.pure]

theorem isFolder_of_makeFolder (h : tree.makeFolder here path = .ok later) :
    later.isFolder here path := by
  obtain ⟨place, hlocate, free, rfl⟩ := makeFolder_eq_ok h
  have unused : tree.at? place ≠ some .folder := by simp [free]
  have inside := inside_of_free unused
  have there : (tree.put place .folder).at? place = some .folder :=
    (at?_put inside place).trans (if_pos rfl)
  exact isFolder_iff.mpr
    ⟨place, (locate_withoutEnd_iff there).mp (locate_put inside unused hlocate), there⟩

theorem isFolder_of_makeFolders (h : tree.makeFolders here path = .ok later) :
    path = "" ∨ later.isFolder here path := by
  obtain ⟨ready, (_ : Grows here (fun _ => False) tree ready), hmade | ⟨rfl, there⟩⟩ :=
    makeFoldersFrom_eq_ok h
  · exact .inr (isFolder_of_makeFolder hmade)
  · exact there

theorem makeFolders_of_isFolder (h : path = "" ∨ tree.isFolder here path) :
    tree.makeFolders here path = .ok tree := by
  unfold makeFolders makeFoldersFrom
  split
  · rfl
  · rename_i hfull
    have there := h.resolve_left hfull
    obtain ⟨place, hlocate, hplace⟩ := isFolder_iff.mp there
    have made : tree.makeFolder here path = .error .alreadyExists := by
      simp only [makeFolder, (locate_withoutEnd_iff hplace).mpr hlocate, bind, Except.bind, hplace]
      rfl
    rw [made]
    exact if_pos there

/-! ## Files that can be written -/

/-- A file can be written if its folder can be made and its path then leads to no folder. -/
def CanWrite (tree : Tree) (here : Place) (path : String) : Prop :=
  ∃ ready place, tree.makeFolders here ((parent? path).getD "") = .ok ready ∧
    ready.locate here path = .ok place ∧ ready.at? place ≠ some .folder

/-- What is written is read back, and can be written over. -/
theorem CanWrite.again (h : tree.CanWrite here path) (contents : ByteArray) :
    ∃ ready later, tree.makeFolders here ((parent? path).getD "") = .ok ready ∧
      ready.write here path contents = .ok later ∧ later.read here path = .ok contents ∧
      later.CanWrite here path := by
  obtain ⟨ready, place, hmade, hlocate, free⟩ := h
  have written : ready.write here path contents = .ok (ready.put place (.file contents)) := by
    unfold write
    rw [hlocate]
    dsimp only
    split
    · exact absurd ‹_› free
    · rfl
  have inside := inside_of_free free
  have grows : Grows here (fun _ => True) ready (ready.put place (.file contents)) :=
    grows_of_write trivial written
  have kept : (ready.put place (.file contents)).CanWrite here path := by
    refine ⟨ready.put place (.file contents), place, ?_, grows.locate path place hlocate, ?_⟩
    · exact makeFolders_of_isFolder ((isFolder_of_makeFolders hmade).imp_right grows.isFolder)
    · rw [at?_put inside, if_pos rfl]
      nofun
  exact ⟨ready, _, hmade, written, read_of_write written, kept⟩

end UsageBoard.Files.Tree
