import UsageBoard.Proofs.Files.Growth
import UsageBoard.Proofs.Program.Moves
import UsageBoard.Url.Alphabets

/-!
# What a run of the program may do to files, and how it ends

Trouble with the backend or with the store is never fatal, and a run writes no files but its own: the
store, the charts that were asked for, or the settings that are to be created.

## Main statements

* `World.code_of_showPage`: the code of a run that shows a page.
* `World.confined_run`: the files that a run may change.
* `World.run_ends_and_keeps_files`: both, and what becomes of a file in the place of new settings.
-/

namespace UsageBoard.World

open UsageBoard.Backend (Client)
open UsageBoard.Files (Place)
open UsageBoard.Files.Tree (Grows)
open UsageBoard.Pages (Answers Detail)
open UsageBoard.Program
open UsageBoard.Usage (UsageRecord)

/-! ## Worlds whose files grow -/

structure Confined (own : String → Prop) (world later : World) : Prop where
  here : later.here = world.here
  grows : Grows world.here own world.tree later.tree

variable {own : String → Prop} {world later last : World} {α : Type}

namespace Confined

theorem of_tree_eq (here : later.here = world.here) (tree : later.tree = world.tree) :
    Confined own world later := by
  refine ⟨here, ?_⟩
  rw [tree]
  exact .refl world.tree

theorem trans (h : Confined own world later) (h' : Confined own later last) :
    Confined own world last :=
  ⟨h'.here.trans h.here, h.grows.trans (h.here ▸ h'.grows)⟩

theorem looks : Looks (Confined own) effects where
  refl _ := of_tree_eq rfl rfl
  trans := trans
  readFile _ _ := of_tree_eq rfl rfl
  fileExists _ _ := of_tree_eq rfl rfl
  now _ := of_tree_eq rfl rfl
  log _ _ := of_tree_eq rfl rfl

theorem sends : Sends (Confined own) effects := fun _ _ => of_tree_eq rfl rfl

theorem prints : Prints (Confined own) console where
  print _ _ := of_tree_eq rfl rfl
  printError _ _ := of_tree_eq rfl rfl
  logLine _ _ _ := of_tree_eq rfl rfl

theorem changeTree {change : Files.Tree → Place → Except Files.Fault Files.Tree}
    (grows : ∀ tree here later, change tree here = .ok later → Grows here own tree later) :
    Moves (Confined own) (changeTree change) := by
  intro world
  simp only [World.changeTree, StateT.run]
  cases h : change world.tree world.here with
  | error fault => exact of_tree_eq rfl rfl
  | ok tree => exact ⟨rfl, grows world.tree world.here tree h⟩

theorem writes {path : String} (mine : own path) : Writes (Confined own) effects path where
  makeFolders _ := changeTree fun _ _ _ h => Files.Tree.grows_of_makeFolders h
  writeFile _ := changeTree fun _ _ _ h => Files.Tree.grows_of_write mine h

end Confined

/-! ## Runs that talk to the backend -/

/-- The means of a run with given settings. -/
def means (env : Environment) (settings : Settings) : Effects (StateM World) :=
  logging effects console env settings.logging

section

variable [Url.DomainNames]

/-- A run gets to its command if its settings load and a client can be made of them. -/
structure Starts (world : World) (env : Environment) (args : List String) (command : Command)
    (settings : Settings) (client : Client) : Prop where
  talks : ∀ output force, command ≠ .init output force
  loaded : ∃ path, Arguments.parse args = .ok ⟨command, path⟩ ∧
    ((Settings.load effects env path).run world).1 = .ok settings
  client : Client.ofSettings settings.backend = .ok client

theorem snd_run_load (world : World) (env : Environment) (path : Option String) :
    ((Settings.load effects env path).run world).2 = world := by
  cases path with
  | some path => rfl
  | none =>
      unfold Settings.load
      cases Settings.defaultPath? env with
      | none => rfl
      | some path =>
          simp only [run_bind_eq]
          split <;> rfl

theorem run_of_talks {env : Environment} {args : List String} {command : Command}
    {path : Option String} (parsed : Arguments.parse args = .ok ⟨command, path⟩)
    (talks : ∀ output force, command ≠ .init output force) :
    world.run env args = (runWithSettings effects console env path command).run world := by
  unfold World.run Program.run
  rw [parsed]
  cases command with
  | init output force => exact absurd rfl (talks output force)
  | _ => rfl

theorem run_of_starts {env : Environment} {args : List String} {command : Command}
    {settings : Settings} {client : Client} (starts : Starts world env args command settings client) :
    world.run env args =
      (showPage (means env settings) console env settings client command).run world := by
  obtain ⟨path, parsed, loaded⟩ := starts.loaded
  rw [run_of_talks parsed starts.talks]
  simp only [runWithSettings, run_bind_eq, loaded, starts.client, snd_run_load, means]

/-- The detail page that a run opens, and the world in which it is refreshed. -/
def opened (world : World) (env : Environment) (settings : Settings) (client : Client)
    (options : DetailOptions) : Detail × World :=
  let fx := means env settings
  let synced := (syncedStore fx env settings client).run world
  (openDetail fx env settings synced.1 options).run synced.2

/-- The answers that a run gets for its detail page. -/
def answers (world : World) (env : Environment) (settings : Settings) (client : Client)
    (options : DetailOptions) : Answers :=
  let page := world.opened env settings client options
  ((page.1.fetch (means env settings) client).run page.2).1

/-- The detail page that a run shows; there is none if no dashboard can be built. -/
def shown? (world : World) (env : Environment) (settings : Settings) (client : Client)
    (options : DetailOptions) : Option Detail :=
  (world.opened env settings client options).1.refreshed? (world.answers env settings client options)

theorem run_showPage_detail (world : World) (env : Environment) (settings : Settings) (client : Client)
    (options : DetailOptions) :
    (showPage (means env settings) console env settings client (.detail options)).run world =
      (showDetail (means env settings) console client options
        (world.opened env settings client options).1).run
          (world.opened env settings client options).2 := by
  simp only [showPage, opened, run_bind_eq]

theorem code_of_showDetail {fx : Effects (StateM World)} {client : Client} {options : DetailOptions}
    (page : Detail) (world : World) (plain : options.chartsFolder = none) :
    ((showDetail fx console client options page).run world).1 =
      if (page.refreshed? ((page.fetch fx client).run world).1).isSome then 0 else brokenCode := by
  rw [← Pages.Detail.refresh?_fst fx client page world]
  simp only [showDetail, run_bind_eq, plain]
  generalize (page.refresh? fx client).run world = refreshed
  obtain ⟨_ | shown, later⟩ := refreshed <;> rfl

/-- A run that shows a page other than the detail page ends with zero.  One that shows the detail page
and writes no charts does too, unless there is no page to show. -/
theorem code_of_showPage (world : World) (env : Environment) (settings : Settings) (client : Client)
    (command : Command) :
    let code := ((showPage (means env settings) console env settings client command).run world).1
    (command = .home ∨ command = .about ∨ command = .footer → code = 0) ∧
    ∀ options, command = .detail options → options.chartsFolder = none →
      code = if (world.shown? env settings client options).isSome then 0 else brokenCode := by
  intro code
  constructor
  · rintro (rfl | rfl | rfl) <;>
      simp only [code, showPage, showHome, showAbout, run_bind_eq, run_pure_eq]
  · rintro options rfl plain
    simp only [code, run_showPage_detail]
    exact code_of_showDetail _ _ plain

/-! ## The files of a run -/

/-- The paths of the files that a run may write: the store, the charts if the call for usage succeeded,
and the settings that it creates. -/
inductive Own (world : World) (env : Environment) (args : List String) : String → Prop where
  | store {command : Command} {settings : Settings} {client : Client} {path : String}
      (starts : Starts world env args command settings client)
      (there : Settings.storePath? env settings.storePath = some path) : Own world env args path
  | chart {options : DetailOptions} {settings : Settings} {client : Client} {folder name : String}
      {records : List UsageRecord} (starts : Starts world env args (.detail options) settings client)
      (given : options.chartsFolder = some folder) (named : name ∈ chartNames)
      (answered : (world.answers env settings client options).usage = .ok records) :
      Own world env args (Settings.joinPath folder name)
  | settings {output : Option String} {force : Bool} {settingsPath : Option String} {path : String}
      (parsed : Arguments.parse args = .ok ⟨.init output force, settingsPath⟩)
      (there : output.or (Settings.defaultPath? env) = some path) : Own world env args path

theorem dashboard_of_opened (world : World) (env : Environment) (settings : Settings) (client : Client)
    (options : DetailOptions) :
    (world.opened env settings client options).1.view.dashboard = none := by
  simp only [opened, openDetail, run_bind_eq, run_pure_eq]
  rfl

omit [Url.DomainNames] in
/-- A page that showed no usage before has charts only if the call for usage succeeded. -/
theorem usage_of_charts {page shown : Detail} {answers : Answers} (fresh : page.view.dashboard = none)
    (refreshed : page.refreshed? answers = some shown) (charts : shown.charts.isSome) :
    ∃ records, answers.usage = .ok records := by
  cases husage : answers.usage with
  | ok records => exact ⟨records, rfl⟩
  | error fault =>
      simp only [Detail.refreshed?, husage, Detail.showUsage?, Option.map_some] at refreshed
      obtain rfl := Option.some.inj refreshed
      rw [Pages.showAccount_showCacheHits, Detail.charts, fresh] at charts
      cases charts

theorem confined_showPage {env : Environment} {args : List String} {command : Command}
    {settings : Settings} {client : Client} (starts : Starts world env args command settings client) :
    Confined (Own world env args) world
      ((showPage (means env settings) console env settings client command).run world).2 := by
  have looks : Looks (Confined (Own world env args)) (means env settings) :=
    Confined.looks.logging Confined.prints env settings.logging
  have writes : ∀ path, Own world env args path →
      Writes (Confined (Own world env args)) (means env settings) path :=
    fun path mine => ⟨(Confined.writes mine).makeFolders, (Confined.writes mine).writeFile⟩
  have store : ∀ path, Settings.storePath? env settings.storePath = some path →
      Writes (Confined (Own world env args)) (means env settings) path :=
    fun path there => writes path (.store starts there)
  have synced := looks.syncedStore Confined.sends env settings store client
  have kept : ∀ w path, ((syncedStore (means env settings) env settings client).run w).1.path =
      some path → Writes (Confined (Own world env args)) (means env settings) path := by
    intro w path there
    rw [path_of_syncedStore] at there
    exact store path there
  cases command with
  | detail options =>
      rw [run_showPage_detail]
      have opens : Confined (Own world env args) world (world.opened env settings client options).2 :=
        Confined.trans (synced world) (looks.openDetail env settings (kept world) options _)
      refine opens.trans (Confined.trans (looks.refresh? Confined.sends client _ _)
        (looks.showDetail_after_refresh Confined.prints client options _ _ ?_))
      intro shown folder refreshed given charts name named
      obtain ⟨records, answered⟩ :=
        usage_of_charts (dashboard_of_opened world env settings client options) refreshed charts
      exact writes _ (.chart starts given named answered)
  | home =>
      exact looks.bind synced (fun w => looks.showHome Confined.prints Confined.sends settings client
        (kept w)) world
  | about =>
      exact looks.bind synced (fun w => looks.showAbout Confined.prints Confined.sends client (kept w))
        world
  | footer =>
      refine looks.bind synced (fun w => ?_) world
      exact looks.bind (Confined.prints.print _) fun _ => looks.pure 0
  | init output force => exact absurd rfl (starts.talks output force)

theorem confined_run (world : World) (env : Environment) (args : List String) :
    Confined (Own world env args) world (world.run env args).2 := by
  have talking : ∀ command path, Arguments.parse args = .ok ⟨command, path⟩ →
      (∀ output force, command ≠ .init output force) →
        Confined (Own world env args) world (world.run env args).2 := by
    intro command path parsed talks
    have found := snd_run_load world env path
    cases loaded : ((Settings.load effects env path).run world).1 with
    | error fault =>
        rw [run_of_talks parsed talks]
        simp only [runWithSettings, run_bind_eq, loaded, found]
        exact Confined.looks.fail Confined.prints _ world
    | ok settings =>
        cases made : Client.ofSettings settings.backend with
        | error fault =>
            rw [run_of_talks parsed talks]
            simp only [runWithSettings, run_bind_eq, loaded, made, found]
            exact Confined.looks.fail Confined.prints _ world
        | ok client =>
            have starts : Starts world env args command settings client :=
              ⟨talks, ⟨path, parsed, loaded⟩, made⟩
            rw [run_of_starts starts]
            exact confined_showPage starts
  cases parsed : Arguments.parse args with
  | error reason =>
      unfold World.run Program.run
      rw [parsed]
      exact Confined.looks.halt Confined.prints reason world
  | ok arguments =>
      obtain ⟨command, path⟩ := arguments
      cases command with
      | init output force =>
          unfold World.run Program.run
          rw [parsed]
          refine Confined.looks.createSettings Confined.prints env output force ?_ world
          exact fun path there => Confined.writes (.settings parsed there)
      | _ => exact talking _ path parsed nofun

theorem Own.eq_of_init {env : Environment} {args : List String} {output : Option String} {force : Bool}
    {settingsPath : Option String} {path other : String} (mine : Own world env args other)
    (parsed : Arguments.parse args = .ok ⟨.init output force, settingsPath⟩)
    (there : output.or (Settings.defaultPath? env) = some path) : other = path := by
  have other_command : ∀ {command : Command} {settings : Settings} {client : Client},
      ¬Starts world env args command settings client := by
    intro command settings client starts
    obtain ⟨_, parsed', -⟩ := starts.loaded
    rw [parsed] at parsed'
    cases parsed'
    exact starts.talks output force rfl
  cases mine with
  | store starts => exact (other_command starts).elim
  | chart starts => exact (other_command starts).elim
  | settings parsed' there' =>
      rw [parsed] at parsed'
      cases parsed'
      exact Option.some.inj (there'.symm.trans there)

/-- New settings do not take the place of what their path leads to, unless they are to do so. -/
theorem run_init_of_exists {env : Environment} {args : List String} {output : Option String}
    {settingsPath : Option String} {path : String}
    (parsed : Arguments.parse args = .ok ⟨.init output false, settingsPath⟩)
    (there : output.or (Settings.defaultPath? env) = some path)
    (found : world.tree.exists? world.here path) : (world.run env args).2.tree = world.tree := by
  unfold World.run Program.run
  rw [parsed]
  simp only [createSettings, there, run_bind_eq]
  have hfound : ((effects.fileExists path).run world).1 = true := found
  rw [hfound]
  rfl

/-- Whatever the arguments, the files and the backend are: a run that gets to its command shows a page
and ends with zero, unless the detail page cannot be shown or is to be written as charts.  A file that a
run has changed, or made, is one to which its own paths lead.  Settings that are created without force
leave the files alone if there is something in their place; a file that they replace all the same is one
to which their path did not lead before. -/
theorem run_ends_and_keeps_files (world : World) (env : Environment) (args : List String) :
    let ran := world.run env args
    (∀ command settings client, Starts world env args command settings client →
      (command = .home ∨ command = .about ∨ command = .footer → ran.1 = 0) ∧
      ∀ options, command = .detail options → options.chartsFolder = none →
        ran.1 = if (world.shown? env settings client options).isSome then 0 else brokenCode) ∧
    (∀ place, ran.2.tree.contents? place ≠ world.tree.contents? place →
      ∃ path, Own world env args path ∧ ran.2.tree.locate world.here path = .ok place) ∧
    ∀ output settingsPath path, Arguments.parse args = .ok ⟨.init output false, settingsPath⟩ →
      output.or (Settings.defaultPath? env) = some path →
        (world.tree.exists? world.here path → ran.2.tree = world.tree) ∧
        ∀ place, (world.tree.contents? place).isSome →
          ran.2.tree.contents? place ≠ world.tree.contents? place →
            ∃ fault, world.tree.locate world.here path = .error fault := by
  intro ran
  have confined := confined_run world env args
  refine ⟨?_, ?_, ?_⟩
  · intro command settings client starts
    have code := code_of_showPage world env settings client command
    simp only [ran, run_of_starts starts]
    exact code
  · exact fun place changed => confined.grows.exists_own changed
  · intro output settingsPath path parsed there
    have kept : world.tree.exists? world.here path → ran.2.tree = world.tree :=
      run_init_of_exists parsed there
    refine ⟨kept, ?_⟩
    intro place existed changed
    cases hlocate : world.tree.locate world.here path with
    | error fault => exact ⟨fault, rfl⟩
    | ok target =>
        -- the path leads to the same place before and after, where there was something already
        obtain ⟨other, mine, led⟩ := confined.grows.exists_own changed
        obtain rfl := mine.eq_of_init parsed there
        obtain rfl : target = place :=
          Except.ok.inj ((confined.grows.locate other target hlocate).symm.trans led)
        have found := Files.Tree.exists?_of_contents? hlocate existed
        exact absurd (congrArg (Files.Tree.contents? · target) (kept found)) changed

end

section

open scoped Url.Alphabets

/-- Nobody is there to answer: the home page is shown all the same.  Settings are in the place of new ones,
and stay. -/
theorem run_ends_and_keeps_files_of_silence :
    let env : Environment := ⟨fun _ => none, none, 0⟩
    let contents := "[backend]".toUTF8
    let world := World.initial ⟨[(["a.toml"], .file contents)]⟩ [] 0 fun _ _ => none
    (world.run env ["home"]).1 = 0 ∧
      (world.run env ["init", "-o", "a.toml"]).2.tree.contents? ["a.toml"] = some contents := by
  intro env contents world
  have client : Client.ofSettings Settings.default.backend =
      .ok ⟨Client.withoutSlashes Settings.default.backend.baseUrl, none, none, none⟩ := rfl
  have starts : Starts world env ["home"] .home Settings.default _ :=
    ⟨nofun, ⟨none, by decide +kernel, rfl⟩, client⟩
  have parsed : Arguments.parse ["init", "-o", "a.toml"] = .ok ⟨.init (some "a.toml") false, none⟩ := by
    decide +kernel
  constructor
  · exact ((run_ends_and_keeps_files world env ["home"]).1 _ _ _ starts).1 (.inl rfl)
  · have kept := ((run_ends_and_keeps_files world env _).2.2 _ _ "a.toml" parsed rfl).1 rfl
    rw [kept]
    rfl

/-- A path that leads through a folder that is not there, and back: new settings make the folder, and
then take the place of a file. -/
theorem run_init_through_missing_folder :
    let env : Environment := ⟨fun _ => none, none, 0⟩
    let contents := "mine".toUTF8
    let world := World.initial ⟨[(["b.toml"], .file contents)]⟩ [] 0 fun _ _ => none
    let ran := world.run env ["init", "-o", "x/../b.toml"]
    Arguments.parse ["init", "-o", "x/../b.toml"] = .ok ⟨.init (some "x/../b.toml") false, none⟩ ∧
      ran.1 = 0 ∧ ran.2.tree.locate world.here "x/../b.toml" = .ok ["b.toml"] ∧
      world.tree.contents? ["b.toml"] = some contents ∧
      ran.2.tree.contents? ["b.toml"] = some Settings.starter.toUTF8 ∧
      Settings.starter.toUTF8 ≠ contents := by
  intro env contents world ran
  exact ⟨by decide +kernel, by decide +kernel, by decide +kernel, rfl, rfl, by decide +kernel⟩

end

end UsageBoard.World
