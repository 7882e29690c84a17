import UsageBoard.Proofs.Store.Disk

/-!
# What a reopened store holds

After any operations on a store, of which any may fail to be written, the file holds what the store
held right after the latest write that succeeded, and the store itself holds the latest values.  Whether
a write succeeded is what the operation reports, not what is on the disk.

## Main statements

* `Moment.after_cases`: what one operation does to the store, and to the file if it reports success.
* `Moment.foldl_after`: the same for a run of operations.
* `reopened_store_of_run`: what is found when the file is opened again after a run.
-/

namespace UsageBoard.Store

/-! ## Edits -/

def latestEdit? (key : String) (edits : List Edit) : Option Edit :=
  (edits.filter fun edit => edit.key == key).getLast?

theorem Entries.get?_applyAll (entries : Entries) (edits : List Edit) (key : String) :
    (entries.applyAll edits).get? key =
      match latestEdit? key edits with
      | some edit => edit.value?
      | none => entries.get? key := by
  induction edits generalizing entries with
  | nil => rfl
  | cons edit rest ih =>
      rw [applyAll, List.foldl_cons, ← applyAll, ih, latestEdit?, latestEdit?, get?_apply]
      by_cases h : edit.key = key
      · rw [List.filter_cons_of_pos (by simpa using h), List.getLast?_cons, h]
        cases (rest.filter fun edit => edit.key == key).getLast? <;> simp
      · have hne : key ≠ edit.key := fun e => h e.symm
        rw [List.filter_cons_of_neg (by simpa using h)]
        simp [hne]

theorem run_edit {σ : Type} (fx : Effects (StateM σ)) (path : String) (entries : Entries)
    (change : Edit) (s : σ) :
    (LocalStore.edit fx ⟨some path, entries⟩ change).run s =
      if entries.isChangedBy change then
        let attempted := (LocalStore.write fx path (entries.apply change)).run s
        ((attempted.1, ⟨some path, entries.apply change⟩), attempted.2)
      else ((.ok (), ⟨some path, entries.apply change⟩), s) := by
  cases h : entries.isChangedBy change <;> simp only [LocalStore.edit, h] <;> rfl

/-! ## Operations -/

inductive Operation where
  | set (key value : String)
  | remove (key : String)
  | setOrWarn (key value : String)

namespace Operation

def edit : Operation → Edit
  | set key value => .put key value
  | remove key => .erase key
  | setOrWarn key value => .put key value

/-- The store after an operation, whether or not the change could be written. -/
def perform {m : Type → Type} [Monad m] (fx : Effects m) (store : LocalStore) :
    Operation → m LocalStore
  | set key value => return (← store.edit fx (.put key value)).2
  | remove key => return (← store.edit fx (.erase key)).2
  | setOrWarn key value => store.editOrWarn fx (.put key value)

end Operation

structure Moment where
  store : LocalStore
  disk : Disk

namespace Moment

def opened (path : String) (disk : Disk) : Moment :=
  let (store, disk) := (LocalStore.openFile Disk.effects path).run disk
  ⟨store, disk⟩

def after (moment : Moment) (operation : Operation) : Moment :=
  let (store, disk) := (operation.perform Disk.effects moment.store).run moment.disk
  ⟨store, disk⟩

/-- What becomes of the change of an operation; `setOrWarn` does not return this, but logs a fault. -/
def outcome (moment : Moment) (operation : Operation) : Except StoreError Unit :=
  ((moment.store.edit Disk.effects operation.edit).run moment.disk).1.1

/-- Whether an operation has a change to write, and reports success. -/
def saves (moment : Moment) (operation : Operation) : Bool :=
  moment.store.entries.isChangedBy operation.edit && (moment.outcome operation).isOk

/-- What the store holds right after each of the operations that write with success. -/
def saved (moment : Moment) : List Operation → List Entries
  | [] => []
  | operation :: rest =>
      let next := moment.after operation
      if moment.saves operation then next.store.entries :: next.saved rest else next.saved rest

theorem opened_eq (path : String) (disk : Disk) :
    opened path disk = ⟨⟨some path, held (disk.files path)⟩, disk⟩ := by
  rw [← entriesOf_eq_held]
  simp only [opened, LocalStore.openFile, Disk.effects, StateT.run_bind]
  simp only [StateT.run, bind, pure]
  cases LocalStore.entriesOf (disk.files path) <;> rfl

/-- Every operation is an edit; a failure that is only logged is no other change. -/
theorem after_eq (moment : Moment) (operation : Operation) :
    let edited := (moment.store.edit Disk.effects operation.edit).run moment.disk
    moment.after operation = ⟨edited.1.2, edited.2⟩ := by
  cases operation with
  | set key value => rfl
  | remove key => rfl
  | setOrWarn key value =>
      simp only [after, Operation.perform, Operation.edit, LocalStore.editOrWarn, StateT.run_bind]
      rcases (moment.store.edit Disk.effects (.put key value)).run moment.disk with
        ⟨⟨fault | done, store⟩, disk⟩ <;> rfl

/-- An operation makes its change to the store.  It is in the file if the operation writes with success,
and otherwise the files are as they were. -/
theorem after_cases (path : String) (entries : Entries) (operation : Operation) (disk : Disk) :
    let start : Moment := ⟨⟨some path, entries⟩, disk⟩
    let next := start.after operation
    next.store = ⟨some path, entries.apply operation.edit⟩ ∧
      if start.saves operation then held (next.disk.files path) = next.store.entries
      else next.disk.files = disk.files := by
  simp only [after_eq, saves, outcome, run_edit]
  cases changed : entries.isChangedBy operation.edit with
  | false => exact ⟨rfl, rfl⟩
  | true =>
      refine ⟨rfl, ?_⟩
      have attempted := Disk.attempted_write path (entries.apply operation.edit) disk
      revert attempted
      rcases (LocalStore.write Disk.effects path (entries.apply operation.edit)).run disk with
        ⟨outcome, later⟩
      rintro (⟨fault, files⟩ | files)
      · exact files
      · exact (congrArg held files).trans (held_toUTF8 _)

/-- A run makes all its changes to the store, and the file keeps the latest that was written. -/
theorem foldl_after (path : String) (entries : Entries) (operations : List Operation)
    (disk : Disk) :
    let start : Moment := ⟨⟨some path, entries⟩, disk⟩
    let last := operations.foldl after start
    last.store = ⟨some path, entries.applyAll (operations.map Operation.edit)⟩ ∧
      held (last.disk.files path) =
        (start.saved operations).getLast?.getD (held (disk.files path)) := by
  induction operations generalizing entries disk with
  | nil => exact ⟨rfl, rfl⟩
  | cons operation rest ih =>
      obtain ⟨hstore, hdisk⟩ := after_cases path entries operation disk
      generalize hnext : after ⟨⟨some path, entries⟩, disk⟩ operation = next at hstore hdisk
      rcases next with ⟨_, later⟩
      subst hstore
      obtain ⟨hlast, hheld⟩ := ih (entries.apply operation.edit) later
      simp only [List.foldl_cons, hnext, saved]
      refine ⟨hlast, hheld.trans ?_⟩
      by_cases success : saves ⟨⟨some path, entries⟩, disk⟩ operation
      · rw [if_pos success] at hdisk ⊢
        rw [List.getLast?_cons, hdisk]
        rfl
      · rw [if_neg success] at hdisk ⊢
        rw [hdisk]

end Moment

/-- After any operations, whether or not they could be written, the reopened file holds what the
store held after the latest operation that had a change to write and reported success, and each key has
its latest value. -/
theorem reopened_store_of_run (path : String) (disk : Disk) (operations : List Operation) :
    let start := Moment.opened path disk
    let last := operations.foldl Moment.after start
    (Moment.opened path last.disk).store =
        ⟨some path, (start.saved operations).getLast?.getD (held (disk.files path))⟩ ∧
      ∀ key, last.store.get? key =
        match latestEdit? key (operations.map Operation.edit) with
        | some edit => edit.value?
        | none => (held (disk.files path)).get? key := by
  obtain ⟨hstore, hheld⟩ := Moment.foldl_after path (held (disk.files path)) operations disk
  rw [← Moment.opened_eq path disk] at hstore hheld
  refine ⟨?_, ?_⟩
  · rw [Moment.opened_eq, hheld]
  · intro key
    rw [hstore]
    exact Entries.get?_applyAll _ _ key

/-- A notice that could not be replaced at first and not be removed at last: the file holds what was
written in between, with the notice that replaced the first. -/
theorem reopened_store_of_run_with_failures :
    let full : Except Files.Fault Unit := .error (.other "No space left on device")
    let disk : Disk := ⟨fun _ => .error .notFound, [.ok (), full, .ok (), full]⟩
    let operations : List Operation :=
      [.set "notice" "old", .setOrWarn "notice" "new", .remove "footer_html",
        .set "system_name" "Harbor", .remove "notice"]
    let start := Moment.opened "store" disk
    let last := operations.foldl Moment.after start
    let written := Entries.ofPairs [("notice", "new"), ("system_name", "Harbor")]
    start.saved operations = [Entries.ofPairs [("notice", "old")], written] ∧
      (Moment.opened "store" last.disk).store = ⟨some "store", written⟩ ∧
      last.store.get? "notice" = none ∧ last.store.get? "system_name" = some "Harbor" := by
  intro full disk operations start last written
  have saved : start.saved operations = [Entries.ofPairs [("notice", "old")], written] := by
    decide +kernel
  obtain ⟨reopened, latest⟩ := reopened_store_of_run "store" disk operations
  refine ⟨saved, reopened.trans ?_, latest "notice", latest "system_name"⟩
  rw [saved]
  rfl

end UsageBoard.Store
