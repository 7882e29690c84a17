import UsageBoard.Proofs.Files.ReadBack

/-!
# Growing trees

A tree grows if folders are made in it and files are written to which given paths lead.  All other files
stay as they are, and every path leads where it led before.

## Main statements

* `Grows.trans`: one growth after another is a growth.
* `grows_of_write`, `grows_of_makeFolders`: what writing a file and making folders do to a tree.
-/

namespace UsageBoard.Files.Tree

/-- What may become of what is at a place: a folder where there was nothing, and a file, instead of what
was there, if the place is one's own. -/
inductive Becomes (own : Prop) : Option Entry → Option Entry → Prop where
  | same (found : Option Entry) : Becomes own found found
  | folder : Becomes own none (some .folder)
  | file {found : Option Entry} (mine : own) (free : found ≠ some .folder) (contents : ByteArray) :
      Becomes own found (some (.file contents))

namespace Becomes

variable {own other : Prop} {first second third : Option Entry}

theorem imp (h : Becomes own first second) (mine : own → other) : Becomes other first second := by
  cases h with
  | same => exact .same _
  | folder => exact .folder
  | file there free contents => exact .file (mine there) free contents

theorem trans (h : Becomes own first second) (h' : Becomes own second third) :
    Becomes own first third := by
  cases h with
  | same => exact h'
  | folder =>
      -- a folder stays a folder
      cases h' with
      | same => exact .folder
      | file _ free _ => exact absurd rfl free
  | file mine free contents =>
      cases h' with
      | same => exact .file mine free contents
      | file _ _ next => exact .file mine free next

end Becomes

/-- A tree grew if every path leads where it led before, and nothing became of what is at a place but
what may, of which the files are those to which one's own paths lead. -/
structure Grows (here : Place) (own : String → Prop) (tree later : Tree) : Prop where
  locate : ∀ path place, tree.locate here path = .ok place → later.locate here path = .ok place
  becomes : ∀ place, Becomes (∃ path, own path ∧ later.locate here path = .ok place) (tree.at? place)
    (later.at? place)

variable {here place : Place} {own : String → Prop} {path : String} {tree later last : Tree}

namespace Grows

theorem refl (tree : Tree) : Grows here own tree tree :=
  ⟨fun _ _ h => h, fun place => .same (tree.at? place)⟩

theorem trans (h : Grows here own tree later) (h' : Grows here own later last) :
    Grows here own tree last := by
  refine ⟨fun path place there => h'.locate path place (h.locate path place there), ?_⟩
  intro place
  refine ((h.becomes place).imp ?_).trans (h'.becomes place)
  rintro ⟨path, mine, there⟩
  exact ⟨path, mine, h'.locate path place there⟩

theorem at?_of_folder (h : Grows here own tree later) (there : tree.at? place = some .folder) :
    later.at? place = some .folder := by
  have hplace := h.becomes place
  rw [there] at hplace
  generalize later.at? place = found at hplace
  cases hplace with
  | same => rfl
  | file _ free _ => exact absurd rfl free

theorem isFolder (h : Grows here own tree later) (there : tree.isFolder here path) :
    later.isFolder here path := by
  unfold Tree.isFolder find? at there ⊢
  cases hlocate : tree.locate here path with
  | error fault => simp [hlocate, bind, Except.bind] at there
  | ok place =>
      rw [h.locate path place hlocate]
      rw [hlocate] at there
      simp only [bind, Except.bind] at there ⊢
      cases hplace : tree.at? place with
      | none => rw [hplace] at there; cases there
      | some entry =>
          rw [hplace] at there
          cases entry with
          | folder => rw [h.at?_of_folder hplace]; rfl
          | file contents => cases there

end Grows

def contents? (tree : Tree) (place : Place) : Option ByteArray :=
  match tree.at? place with
  | some (.file contents) => some contents
  | _ => none

theorem exists?_of_contents? (h : tree.locate here path = .ok place)
    (found : (tree.contents? place).isSome) : tree.exists? here path := by
  unfold contents? at found
  cases there : tree.at? place with
  | none => simp [there] at found
  | some entry => rw [exists?, find?_of_locate h there]

/-- A file that has changed, or is new, is one to which one's own path leads. -/
theorem Grows.exists_own (h : Grows here own tree later)
    (changed : later.contents? place ≠ tree.contents? place) :
    ∃ path, own path ∧ later.locate here path = .ok place := by
  have hplace := h.becomes place
  unfold contents? at changed
  generalize tree.at? place = found at hplace changed
  generalize later.at? place = left at hplace changed
  cases hplace with
  | same => exact absurd rfl changed
  | folder => exact absurd rfl changed
  | file mine _ _ => exact mine

theorem grows_put {entry : Entry} (free : tree.at? place ≠ some .folder)
    (becomes : Becomes (∃ path, own path ∧ (tree.put place entry).locate here path = .ok place)
      (tree.at? place) (some entry)) :
    Grows here own tree (tree.put place entry) := by
  have inside := inside_of_free free
  refine ⟨fun path other there => locate_put inside free there, ?_⟩
  intro other
  rw [at?_put inside]
  split
  · rename_i heq
    exact heq ▸ becomes
  · exact .same _

theorem grows_of_write {contents : ByteArray} (mine : own path)
    (h : tree.write here path contents = .ok later) : Grows here own tree later := by
  obtain ⟨place, hlocate, free, rfl⟩ := write_eq_ok h
  have there : (tree.put place (.file contents)).locate here path = .ok place :=
    locate_put (inside_of_free free) free hlocate
  exact grows_put free (.file ⟨path, mine, there⟩ free contents)

theorem makeFolder_eq_ok (h : tree.makeFolder here path = .ok later) :
    ∃ place, tree.locate here (withoutEnd path) = .ok place ∧ tree.at? place = none ∧
      later = tree.put place .folder := by
  simp only [makeFolder, bind, Except.bind] at h
  cases hlocate : tree.locate here (withoutEnd path) with
  | error fault => simp [hlocate] at h
  | ok place =>
      simp only [hlocate] at h
      cases hplace : tree.at? place with
      | some entry => simp [hplace, throw, throwThe, MonadExceptOf.throw] at h
      | none =>
          rw [hplace] at h
          exact ⟨place, rfl, hplace, (Except.ok.inj h).symm⟩

theorem grows_of_makeFolder (h : tree.makeFolder here path = .ok later) :
    Grows here own tree later := by
  obtain ⟨place, -, free, rfl⟩ := makeFolder_eq_ok h
  refine grows_put (by simp [free]) ?_
  rw [free]
  exact .folder

theorem unlessFolder_eq_ok {fault : Fault} (h : tree.unlessFolder here path fault = .ok later) :
    later = tree ∧ tree.isFolder here path := by
  unfold unlessFolder at h
  split at h
  · rename_i there
    exact ⟨(Except.ok.inj h).symm, there⟩
  · cases h

/-- Folders are made one by one in a growing tree: the last of them is made, or is there already. -/
theorem makeFoldersFrom_eq_ok {fuel : Nat} (h : tree.makeFoldersFrom here fuel path = .ok later) :
    ∃ ready, Grows here own tree ready ∧
      (ready.makeFolder here path = .ok later ∨
        later = ready ∧ (path = "" ∨ ready.isFolder here path)) := by
  induction fuel generalizing path later with
  | zero => cases h
  | succ fuel ih =>
      unfold makeFoldersFrom at h
      split at h
      · rename_i hempty
        exact ⟨tree, .refl tree, .inr ⟨(Except.ok.inj h).symm, .inl hempty⟩⟩
      · split at h
        · rename_i made hmade
          exact ⟨tree, .refl tree, .inl (hmade.trans h)⟩
        · cases hparent : parent? path with
          | none => simp [hparent] at h
          | some parent =>
              rw [hparent] at h
              simp only [bind, Except.bind] at h
              cases hready : tree.makeFoldersFrom here fuel parent with
              | error fault => simp [hready] at h
              | ok ready =>
                  rw [hready] at h
                  dsimp only at h
                  have grown : Grows here own tree ready := by
                    obtain ⟨earlier, grows, last⟩ := ih hready
                    rcases last with hmade | ⟨rfl, -⟩
                    · exact grows.trans (grows_of_makeFolder hmade)
                    · exact grows
                  split at h
                  · rename_i made hmade
                    exact ⟨ready, grown, .inl (hmade.trans h)⟩
                  · obtain ⟨rfl, there⟩ := unlessFolder_eq_ok h
                    exact ⟨later, grown, .inr ⟨rfl, .inr there⟩⟩
        · obtain ⟨rfl, there⟩ := unlessFolder_eq_ok h
          exact ⟨later, .refl later, .inr ⟨rfl, .inr there⟩⟩

theorem grows_of_makeFolders (h : tree.makeFolders here path = .ok later) :
    Grows here own tree later := by
  obtain ⟨ready, grows, hmade | ⟨rfl, -⟩⟩ := makeFoldersFrom_eq_ok h
  · exact grows.trans (grows_of_makeFolder hmade)
  · exact grows

end UsageBoard.Files.Tree
