import UsageBoard.Proofs.Files.ReadBack
import UsageBoard.Proofs.Store.Edits
import UsageBoard.World

/-!
# Edits that report success

An edit that reports success was written, unless it is the erasure of a key that is not there: that is
not written, and reports success also after edits that could not be written.

## Main statements

* `KeepsFiles`: what is asked of the surroundings.  A failed write may leave anything in the file.
* `KeepsFiles.edit_cases`: what an edit that reports success has done.
* `kept_of_ok_iff`: when the file holds the store after an edit that reports success.
-/

namespace UsageBoard.Store

open UsageBoard.Files (Fault)

variable {σ : Type}

/-- A file that was written without a fault holds what was written; reading and logging change no
file. -/
structure KeepsFiles (fx : Effects (StateM σ)) (files : σ → String → Except Fault ByteArray) :
    Prop where
  readFile : ∀ path s, (fx.readFile path).run s = (files s path, s)
  writeFile : ∀ path contents s, ((fx.writeFile path contents).run s).1 = .ok () →
    files ((fx.writeFile path contents).run s).2 path = .ok contents.toUTF8
  log : ∀ event s, files ((fx.log event).run s).2 = files s

theorem Disk.keepsFiles : KeepsFiles Disk.effects Disk.files where
  readFile _ _ := rfl
  writeFile path contents disk := by
    simp only [Disk.effects, Disk.attempt, StateT.run]
    split
    · intro failed
      cases failed
    · intro _
      exact if_pos rfl
  log _ _ := rfl

theorem World.keepsFiles : KeepsFiles World.effects fun world => world.tree.read world.here where
  readFile _ _ := rfl
  writeFile path contents world := by
    simp only [World.effects, World.changeTree, StateT.run]
    cases h : world.tree.write world.here path contents.toUTF8 with
    | error fault =>
        intro failed
        cases failed
    | ok tree =>
        intro _
        exact Files.Tree.read_of_write h
  log _ _ := rfl

theorem Entries.apply_of_not_isChangedBy {entries : Entries} {change : Edit}
    (h : entries.isChangedBy change = false) : entries.apply change = entries := by
  cases change with
  | put key value => cases h
  | erase key =>
      have absent : entries.pairs.lookup key = none := by
        simpa [isChangedBy, get?] using h
      refine Entries.ext (List.filter_eq_self.mpr ?_)
      intro pair hpair
      have hne := List.lookup_eq_none_iff.mp absent pair hpair
      rwa [bne_comm]

def reopened (fx : Effects (StateM σ)) (path : String) (s : σ) : LocalStore :=
  ((LocalStore.openFile fx path).run s).1

/-- Makes edits one after the other: what each of them reports, and the store after them. -/
def editEach {m : Type → Type} [Monad m] (fx : Effects m) :
    LocalStore → List Edit → m (List (Except StoreError Unit) × LocalStore)
  | store, [] => return ([], store)
  | store, change :: rest => do
      let (outcome, store) ← store.edit fx change
      let (outcomes, store) ← editEach fx store rest
      return (outcome :: outcomes, store)

theorem snd_run_editEach (fx : Effects (StateM σ)) (path : String) (entries : Entries)
    (changes : List Edit) (s : σ) :
    ((editEach fx ⟨some path, entries⟩ changes).run s).1.2 = ⟨some path, entries.applyAll changes⟩ := by
  induction changes generalizing entries s with
  | nil => rfl
  | cons change rest ih =>
      simp only [editEach, run_bind_eq, LocalStore.snd_run_edit]
      exact ih _ _

namespace KeepsFiles

variable {fx : Effects (StateM σ)} {files : σ → String → Except Fault ByteArray}
  (keeps : KeepsFiles fx files)

include keeps

theorem reopened_eq (path : String) (s : σ) : reopened fx path s = ⟨some path, held (files s path)⟩ := by
  rw [← entriesOf_eq_held]
  simp only [reopened, LocalStore.openFile, run_bind_eq, keeps.readFile]
  cases LocalStore.entriesOf (files s path) <;> rfl

theorem files_of_openFile (path : String) (s : σ) :
    files ((LocalStore.openFile fx path).run s).2 = files s := by
  simp only [LocalStore.openFile, run_bind_eq, keeps.readFile]
  cases LocalStore.entriesOf (files s path) with
  | ok entries => rfl
  | error fault => exact keeps.log _ s

theorem held_of_write {path : String} {entries : Entries} {s : σ}
    (ok : ((LocalStore.write fx path entries).run s).1 = .ok ()) :
    held (files ((LocalStore.write fx path entries).run s).2 path) = entries := by
  -- the folder is made first, so the file is written in a state of its own
  have written : ∀ t, (((fx.writeFile path entries.text).run t).1.mapError fun fault =>
        (⟨path, fault⟩ : StoreError)) = .ok () →
      held (files ((fx.writeFile path entries.text).run t).2 path) = entries := by
    intro t ht
    have hdone : ((fx.writeFile path entries.text).run t).1 = .ok () := by
      cases h : ((fx.writeFile path entries.text).run t).1 with
      | error fault => simp [h, Except.mapError] at ht
      | ok done => rfl
    rw [keeps.writeFile path _ t hdone, held_toUTF8]
  unfold LocalStore.write at ok ⊢
  dsimp only at ok ⊢
  split at ok
  · rename_i hfolder
    rw [if_pos hfolder]
    exact written s ok
  · rename_i hfolder
    rw [if_neg hfolder]
    simp only [run_bind_eq] at ok ⊢
    revert ok
    generalize (fx.makeFolders ((Files.parent? path).getD "")).run s = made
    rcases made with ⟨_ | _, t⟩
    · intro failed
      cases failed
    · exact written t

/-- An edit that reports success was written, or has changed nothing. -/
theorem edit_cases {path : String} {entries : Entries} {change : Edit} {s : σ}
    (ok : ((LocalStore.edit fx ⟨some path, entries⟩ change).run s).1.1 = .ok ()) :
    let later := ((LocalStore.edit fx ⟨some path, entries⟩ change).run s).2
    (entries.isChangedBy change = true ∧ held (files later path) = entries.apply change) ∨
      (entries.isChangedBy change = false ∧ entries.apply change = entries ∧ later = s) := by
  rw [run_edit] at ok ⊢
  by_cases h : entries.isChangedBy change = true
  · rw [if_pos h] at ok ⊢
    exact .inl ⟨h, keeps.held_of_write ok⟩
  · rw [if_neg h]
    have hnot : entries.isChangedBy change = false := Bool.eq_false_iff.mpr h
    exact .inr ⟨hnot, Entries.apply_of_not_isChangedBy hnot, rfl⟩

theorem reopened_of_edit_iff {store : LocalStore} {path : String} (kept : store.path = some path)
    {change : Edit} {s : σ} (ok : ((store.edit fx change).run s).1.1 = .ok ()) :
    let edited := (store.edit fx change).run s
    reopened fx path edited.2 = edited.1.2 ↔
      store.entries.isChangedBy change ∨ reopened fx path s = store := by
  obtain ⟨_, entries⟩ := store
  obtain rfl := kept
  simp only [keeps.reopened_eq, LocalStore.snd_run_edit, LocalStore.mk.injEq, true_and]
  rcases keeps.edit_cases ok with ⟨hchanged, hheld⟩ | ⟨hchanged, hsame, hstate⟩
  · simp [hchanged, hheld]
  · simp [hchanged, hsame, hstate]

/-- As long as every edit reports success the file holds the store. -/
theorem reopened_of_editEach {store : LocalStore} {path : String} {changes : List Edit} {s : σ}
    (start : reopened fx path s = store)
    (ok : ∀ outcome ∈ ((editEach fx store changes).run s).1.1, outcome = .ok ()) :
    let reached := (editEach fx store changes).run s
    reopened fx path reached.2 = reached.1.2 := by
  induction changes generalizing store s with
  | nil => exact start
  | cons change rest ih =>
      simp only [editEach, run_bind_eq] at ok ⊢
      have kept : store.path = some path := by rw [← start, keeps.reopened_eq]
      have first := ok _ List.mem_cons_self
      refine ih ?_ fun outcome h => ok outcome (List.mem_cons_of_mem _ h)
      exact (keeps.reopened_of_edit_iff kept first).mpr (.inr start)

end KeepsFiles

/-- An edit that reports success is kept if it was written, and otherwise just if the file held the
store before.  It is kept in any case if no earlier edit has failed. -/
theorem kept_of_ok_iff (fx : Effects (StateM σ)) (files : σ → String → Except Fault ByteArray)
    (keeps : KeepsFiles fx files) (path : String) (start : σ) (changes : List Edit) (change : Edit) :
    let opened := (LocalStore.openFile fx path).run start
    let reached := (editEach fx opened.1 changes).run opened.2
    let edited := (reached.1.2.edit fx change).run reached.2
    edited.1.1 = .ok () →
      (reopened fx path edited.2 = edited.1.2 ↔
        reached.1.2.entries.isChangedBy change ∨ reopened fx path reached.2 = reached.1.2) ∧
      ((∀ outcome ∈ reached.1.1, outcome = .ok ()) → reopened fx path edited.2 = edited.1.2) := by
  intro opened reached edited ok
  have hopened : reopened fx path opened.2 = opened.1 := by
    rw [keeps.reopened_eq, keeps.files_of_openFile, ← keeps.reopened_eq]
    rfl
  have kept : reached.1.2.path = some path := by
    have hopen : opened.1 = ⟨some path, held (files start path)⟩ := keeps.reopened_eq path start
    simp only [reached, hopen, snd_run_editEach]
  have hkept := keeps.reopened_of_edit_iff kept ok
  exact ⟨hkept, fun fine => hkept.mpr (.inr (keeps.reopened_of_editEach hopened fine))⟩

/-- A footer that could not be written, and a name that is written after it: the file holds both.  In a
world in which nothing fails the erasure of a key that is not there leaves the file as it should be. -/
theorem kept_of_ok_iff_of_failure :
    (let disk : Disk := ⟨fun _ => .error .notFound, [.error (.other "No space left on device")]⟩
      let opened := (LocalStore.openFile Disk.effects "store").run disk
      let reached := (editEach Disk.effects opened.1 [.put "footer_html" "new"]).run opened.2
      let edited := (reached.1.2.edit Disk.effects (.put "system_name" "Harbor")).run reached.2
      reached.1.1 = [.error ⟨"store", .other "No space left on device"⟩] ∧ edited.1.1 = .ok () ∧
        reopened Disk.effects "store" edited.2 = edited.1.2) ∧
      let world := World.initial .empty [] 0 fun _ _ => none
      let opened := (LocalStore.openFile World.effects "store").run world
      let reached := (editEach World.effects opened.1 [.put "footer_html" "new"]).run opened.2
      let edited := (reached.1.2.edit World.effects (.erase "notice")).run reached.2
      edited.1.1 = .ok () ∧ reopened World.effects "store" edited.2 = edited.1.2 := by
  constructor
  · intro disk opened reached edited
    have ok : edited.1.1 = .ok () := rfl
    have hkept := kept_of_ok_iff Disk.effects Disk.files Disk.keepsFiles "store" disk
      [.put "footer_html" "new"] (.put "system_name" "Harbor") ok
    exact ⟨rfl, ok, hkept.1.mpr (.inl rfl)⟩
  · intro world opened reached edited
    have ok : edited.1.1 = .ok () := rfl
    have fine : reached.1.1 = [.ok ()] := rfl
    have hkept := kept_of_ok_iff World.effects _ World.keepsFiles "store" world
      [.put "footer_html" "new"] (.erase "notice") ok
    refine ⟨ok, hkept.2 ?_⟩
    intro outcome h
    exact List.mem_singleton.mp (fine ▸ h)

/-- A store in a folder's place: nothing can be written, and the erasure of a key that is not there
reports success. -/
theorem not_kept_of_erase_absent :
    let world := World.initial ⟨[(["store"], .folder)]⟩ [] 0 fun _ _ => none
    let opened := (LocalStore.openFile World.effects "store").run world
    let failed := (opened.1.edit World.effects (.put "system_name" "Harbor")).run opened.2
    let erased := (failed.1.2.edit World.effects (.erase "notice")).run failed.2
    failed.1.1 = .error ⟨"store", .isFolder⟩ ∧ erased.1.1 = .ok () ∧
      reopened World.effects "store" erased.2 ≠ erased.1.2 := by
  intro world opened failed erased
  refine ⟨rfl, rfl, ?_⟩
  decide +kernel

end UsageBoard.Store
