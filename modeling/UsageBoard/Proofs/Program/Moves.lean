import UsageBoard.Proofs.Pages.Visits
import UsageBoard.World

/-!
# What is done to the surroundings

A relation to which each of a program's means keeps is one to which everything keeps that is done with
them.  The means are taken apart: what only looks, what sends, what writes, and what prints.

## Main statements

* `Looks`, `Writes`, `Prints`: relations to which means keep.
* `Looks.call`, `Looks.editAll`, `Looks.refresh?`: what is done with them keeps to a relation too.
-/

namespace UsageBoard

open UsageBoard.Backend (Client Endpoint)
open UsageBoard.Store (Edit)

variable {σ α β : Type}

/-- What is left is related to what was met. -/
def Moves (R : σ → σ → Prop) (x : StateM σ α) : Prop := ∀ s, R s (x.run s).2

/-- A relation, on which steps can be put together, that holds between states as long as nothing is
written and nothing is sent. -/
structure Looks (R : σ → σ → Prop) (fx : Effects (StateM σ)) : Prop where
  refl : ∀ s, R s s
  trans : ∀ {a b c}, R a b → R b c → R a c
  readFile : ∀ path, Moves R (fx.readFile path)
  fileExists : ∀ path, Moves R (fx.fileExists path)
  now : Moves R fx.now
  log : ∀ event, Moves R (fx.log event)

def Sends (R : σ → σ → Prop) (fx : Effects (StateM σ)) : Prop := ∀ request, Moves R (fx.send request)

/-- A relation to which writing one file keeps, and making folders for it. -/
structure Writes (R : σ → σ → Prop) (fx : Effects (StateM σ)) (path : String) : Prop where
  makeFolders : ∀ folder, Moves R (fx.makeFolders folder)
  writeFile : ∀ contents, Moves R (fx.writeFile path contents)

structure Prints (R : σ → σ → Prop) (console : Program.Console (StateM σ)) : Prop where
  print : ∀ text, Moves R (console.print text)
  printError : ∀ text, Moves R (console.printError text)
  logLine : ∀ settings event, Moves R (console.logLine settings event)

variable {R : σ → σ → Prop} {fx : Effects (StateM σ)}

/-! ## The store of a run -/

theorem LocalStore.path_of_openFile (path : String) (s : σ) :
    ((LocalStore.openFile fx path).run s).1.path = some path := by
  simp only [LocalStore.openFile, run_bind_eq]
  cases LocalStore.entriesOf ((fx.readFile path).run s).1 <;> rfl

namespace Program

variable (fx) (env : Environment) (settings : Settings) (client : Client)

theorem path_of_openStore (s : σ) :
    ((openStore fx env settings).run s).1.path = Settings.storePath? env settings.storePath := by
  unfold openStore
  cases Settings.storePath? env settings.storePath with
  | some path => exact LocalStore.path_of_openFile path s
  | none => rfl

/-- The settings of the site are fetched and put into the store that was opened. -/
theorem fst_run_syncedStore [Url.DomainNames] (s : σ) :
    let opened := (openStore fx env settings).run s
    ((syncedStore fx env settings client).run s).1 = ((opened.1.sync fx client).run opened.2).1.2 := by
  intro opened
  simp only [syncedStore, run_bind_eq, opened]
  generalize (LocalStore.sync fx client _).run _ = synced
  obtain ⟨⟨_ | _, _⟩, _⟩ := synced <;> rfl

theorem path_of_syncedStore [Url.DomainNames] (s : σ) :
    ((syncedStore fx env settings client).run s).1.path =
      Settings.storePath? env settings.storePath := by
  rw [fst_run_syncedStore, Pages.PageOperation.fst_run_sync, path_of_openStore]

def chartNames : List String := ["call_count.json", "consumption.json", "token_cache.json"]

end Program

/-! ## What keeps to a relation -/

namespace Looks

variable (looks : Looks R fx)

include looks

theorem pure (value : α) : Moves R (pure value : StateM σ α) := looks.refl

theorem bind {x : StateM σ α} {f : α → StateM σ β} (first : Moves R x)
    (rest : ∀ s, Moves R (f (x.run s).1)) : Moves R (x >>= f) := by
  intro s
  rw [run_bind_eq]
  exact looks.trans (first s) (rest s _)

theorem logAll (events : List Log.Event) : Moves R (Pages.logAll fx events) := by
  unfold Pages.logAll
  induction events with
  | nil => exact looks.pure ()
  | cons event rest ih => exact looks.bind (looks.log event) fun _ => ih

/-- A call looks around, sends its request if there is one, and looks around again. -/
theorem exists_run_call [Url.DomainNames] (client : Client) (endpoint : Endpoint α) (s : σ) :
    ∃ ready, R s ready ∧
      match client.request? endpoint with
      | .error _ => ((client.call fx endpoint).run s).2 = ready
      | .ok request => R ((fx.send request).run ready).2 ((client.call fx endpoint).run s).2 := by
  refine ⟨_, looks.log ⟨.debug, Backend.callSource, "Backend request",
    [("url", client.baseUrl ++ endpoint.path)]⟩ s, ?_⟩
  unfold Client.call
  cases client.request? endpoint with
  | error fault => rfl
  | ok request =>
      simp only [run_bind_eq]
      generalize (fx.send request).run _ = sent
      obtain ⟨_ | reply, later⟩ := sent
      · exact looks.refl later
      · dsimp only
        cases endpoint.outcome reply with
        | ok value => exact looks.refl later
        | error fault =>
            cases fault with
            | status code => exact (looks.bind (looks.log _) fun _ => looks.pure _) later
            | refused message => exact (looks.bind (looks.log _) fun _ => looks.pure _) later
            | _ => exact looks.refl later

theorem call [Url.DomainNames] (sends : Sends R fx) (client : Client) (endpoint : Endpoint α) :
    Moves R (client.call fx endpoint) := by
  intro s
  obtain ⟨ready, start, rest⟩ := looks.exists_run_call client endpoint s
  cases made : client.request? endpoint with
  | error fault =>
      simp only [made] at rest
      rwa [rest]
  | ok request =>
      simp only [made] at rest
      exact looks.trans start (looks.trans (sends request ready) rest)

/-! ## Settings -/

theorem ofFile [Url.DomainNames] (env : Environment) (path : String) :
    Moves R (Settings.ofFile fx env path) :=
  looks.bind (looks.readFile path) fun _ => looks.pure _

theorem load [Url.DomainNames] (env : Environment) (path : Option String) :
    Moves R (Settings.load fx env path) := by
  cases path with
  | some path => exact looks.ofFile env path
  | none =>
      unfold Settings.load
      cases Settings.defaultPath? env with
      | none => exact looks.pure _
      | some path =>
          refine looks.bind (looks.fileExists path) fun s => ?_
          split
          · exact looks.ofFile env path
          · exact looks.pure _

/-! ## The store -/

theorem openFile (path : String) : Moves R (LocalStore.openFile fx path) := by
  refine looks.bind (looks.readFile path) fun s => ?_
  cases LocalStore.entriesOf ((fx.readFile path).run s).1 with
  | ok entries => exact looks.pure _
  | error fault => exact looks.bind (looks.log _) fun _ => looks.pure _

theorem openStore (env : Environment) (settings : Settings) :
    Moves R (Program.openStore fx env settings) := by
  unfold Program.openStore
  cases Settings.storePath? env settings.storePath with
  | some path => exact looks.openFile path
  | none => exact looks.bind (looks.log _) fun _ => looks.pure _

theorem granularity (store : LocalStore) (fallback : Usage.Granularity) :
    Moves R (store.granularity fx fallback) := by
  unfold LocalStore.granularity
  cases store.get? StoreKey.granularity with
  | none => exact looks.pure _
  | some text =>
      dsimp only
      cases Usage.Granularity.parse text with
      | ok granularity => exact looks.pure _
      | error found => exact looks.bind (looks.log _) fun _ => looks.pure _

theorem write {path : String} (writes : Writes R fx path) (entries : Store.Entries) :
    Moves R (LocalStore.write fx path entries) := by
  have written : Moves R (do
      return (← fx.writeFile path entries.text).mapError fun fault => (⟨path, fault⟩ : StoreError)) :=
    looks.bind (writes.writeFile _) fun _ => looks.pure _
  unfold LocalStore.write
  dsimp only
  split
  · exact written
  · refine looks.bind (writes.makeFolders _) fun s => ?_
    cases ((fx.makeFolders ((Files.parent? path).getD "")).run s).1 with
    | error fault => exact looks.pure _
    | ok done => exact written

theorem edit {store : LocalStore} (writes : ∀ path, store.path = some path → Writes R fx path)
    (change : Edit) : Moves R (store.edit fx change) := by
  obtain ⟨_ | path, entries⟩ := store
  · exact looks.pure _
  · unfold LocalStore.edit
    dsimp only
    split
    · exact looks.bind (looks.write (writes path rfl) _) fun _ => looks.pure _
    · exact looks.pure _

theorem editOrWarn {store : LocalStore} (writes : ∀ path, store.path = some path → Writes R fx path)
    (change : Edit) : Moves R (store.editOrWarn fx change) := by
  refine looks.bind (looks.edit writes change) fun s => ?_
  obtain ⟨_ | _, _⟩ := ((store.edit fx change).run s).1
  · exact looks.bind (looks.log _) fun _ => looks.pure _
  · exact looks.pure _

theorem editAll {store : LocalStore} (writes : ∀ path, store.path = some path → Writes R fx path)
    (changes : List Edit) : Moves R (store.editAll fx changes) := by
  induction changes generalizing store with
  | nil => exact looks.pure _
  | cons change rest ih =>
      refine looks.bind (looks.editOrWarn writes change) fun s => ih ?_
      rw [store.fst_run_editOrWarn]
      exact writes

theorem sync [Url.DomainNames] (sends : Sends R fx) {store : LocalStore}
    (writes : ∀ path, store.path = some path → Writes R fx path) (client : Client) :
    Moves R (store.sync fx client) := by
  refine looks.bind (looks.call sends client Endpoint.status) fun s => ?_
  cases ((client.call fx Endpoint.status).run s).1 with
  | error fault => exact looks.pure _
  | ok status =>
      refine looks.bind (looks.editAll writes _) fun _ => ?_
      exact looks.bind (looks.log _) fun _ => looks.pure _

/-! ## Pages -/

theorem home [Url.DomainNames] (sends : Sends R fx) {store : LocalStore}
    (writes : ∀ path, store.path = some path → Writes R fx path) (client : Client) (loggedIn : Bool) :
    Moves R (Pages.Home.load fx client store loggedIn) := by
  refine looks.bind (looks.call sends client _) fun _ => ?_
  refine looks.bind (looks.call sends client _) fun _ => ?_
  refine looks.bind (looks.logAll _) fun _ => ?_
  exact looks.bind (looks.editAll writes _) fun _ => looks.pure _

theorem about [Url.DomainNames] (sends : Sends R fx) {store : LocalStore}
    (writes : ∀ path, store.path = some path → Writes R fx path) (client : Client) :
    Moves R (Pages.About.load fx client store) := by
  refine looks.bind (looks.call sends client _) fun _ => ?_
  refine looks.bind (looks.logAll _) fun _ => ?_
  exact looks.bind (looks.editAll writes _) fun _ => looks.pure _

theorem fetch [Url.DomainNames] (sends : Sends R fx) (client : Client) (page : Pages.Detail) :
    Moves R (page.fetch fx client) := by
  refine looks.bind (looks.call sends client _) fun _ => ?_
  refine looks.bind (looks.call sends client _) fun _ => ?_
  refine looks.bind (looks.call sends client _) fun _ => ?_
  exact looks.bind looks.now fun _ => looks.pure _

/-- All that a refresh does after its calls is to log. -/
theorem refresh?_after_fetch [Url.DomainNames] (client : Client) (page : Pages.Detail) (s : σ) :
    R ((page.fetch fx client).run s).2 ((page.refresh? fx client).run s).2 := by
  unfold Pages.Detail.refresh?
  rw [run_bind_eq]
  generalize (page.fetch fx client).run s = fetched
  cases page.refreshed? fetched.1 with
  | none => exact looks.refl _
  | some shown => exact (looks.bind (looks.logAll _) fun _ => looks.pure (some shown)) fetched.2

theorem refresh? [Url.DomainNames] (sends : Sends R fx) (client : Client) (page : Pages.Detail) :
    Moves R (page.refresh? fx client) := fun s =>
  looks.trans (looks.fetch sends client page s) (looks.refresh?_after_fetch client page s)

/-! ## Runs -/

/-- After the settings of the site were fetched a failure is logged. -/
theorem syncedStore_after_sync [Url.DomainNames] (env : Environment) (settings : Settings)
    (client : Client) (s : σ) :
    let opened := (Program.openStore fx env settings).run s
    R ((opened.1.sync fx client).run opened.2).2
      ((Program.syncedStore fx env settings client).run s).2 := by
  intro opened
  simp only [Program.syncedStore, run_bind_eq, opened]
  generalize (LocalStore.sync fx client _).run _ = synced
  obtain ⟨⟨_ | _, _⟩, later⟩ := synced
  · exact (looks.bind (looks.log _) fun _ => looks.pure _) later
  · exact looks.refl later

theorem syncedStore [Url.DomainNames] (sends : Sends R fx) (env : Environment) (settings : Settings)
    (writes : ∀ path, Settings.storePath? env settings.storePath = some path → Writes R fx path)
    (client : Client) : Moves R (Program.syncedStore fx env settings client) := by
  intro s
  rw [← Program.path_of_openStore fx env settings s] at writes
  refine looks.trans (looks.openStore env settings s) ?_
  exact looks.trans (looks.sync sends writes client _) (looks.syncedStore_after_sync env settings client s)

theorem openDetail (env : Environment) (settings : Settings) {store : LocalStore}
    (writes : ∀ path, store.path = some path → Writes R fx path) (options : Program.DetailOptions) :
    Moves R (Program.openDetail fx env settings store options) := by
  refine looks.bind (looks.granularity store _) fun _ => ?_
  refine looks.bind looks.now fun _ => ?_
  exact looks.bind (looks.editAll writes _) fun _ => looks.pure _

theorem writeFiles (folder : String) (files : List (String × Json))
    (writes : ∀ file ∈ files, Writes R fx (Settings.joinPath folder file.1)) :
    Moves R (Program.writeFiles fx folder files) := by
  induction files with
  | nil => exact looks.pure _
  | cons file rest ih =>
      obtain ⟨first, others⟩ := List.forall_mem_cons.mp writes
      refine looks.bind (first.writeFile _) fun s => ?_
      cases ((fx.writeFile (Settings.joinPath folder file.1) file.2.pretty).run s).1 with
      | error fault => exact looks.pure _
      | ok done => exact ih others

/-- What a run logs is printed or passed over. -/
theorem logging {console : Program.Console (StateM σ)} (prints : Prints R console) (env : Environment)
    (settings : Settings.Logging) : Looks R (Program.logging fx console env settings) where
  refl := looks.refl
  trans := looks.trans
  readFile := looks.readFile
  fileExists := looks.fileExists
  now := looks.now
  log event := by
    unfold Program.logging
    dsimp only
    split
    · exact prints.logLine settings event
    · exact looks.pure ()

variable {console : Program.Console (StateM σ)} (prints : Prints R console)

include prints

theorem fail (text : String) : Moves R (Program.fail console text) :=
  looks.bind (prints.printError _) fun _ => looks.pure _

theorem halt (reason : Program.Halt) : Moves R (Program.halt console reason) := by
  cases reason with
  | usage => exact looks.bind (prints.printError _) fun _ => looks.pure _
  | help => exact looks.bind (prints.print _) fun _ => looks.pure _
  | version => exact looks.bind (prints.print _) fun _ => looks.pure _

theorem writeCharts (page : Pages.Detail) (folder : String)
    (writes : page.charts.isSome →
      ∀ name ∈ Program.chartNames, Writes R fx (Settings.joinPath folder name)) :
    Moves R (Program.writeCharts fx console page folder) := by
  unfold Program.writeCharts
  cases hcharts : page.charts with
  | none => exact looks.bind (prints.printError _) fun _ => looks.pure _
  | some charts =>
      rw [hcharts] at writes
      have own := writes rfl
      refine looks.bind ((own _ List.mem_cons_self).makeFolders folder) fun s => ?_
      cases ((fx.makeFolders folder).run s).1 with
      | error fault => exact looks.fail prints _
      | ok done =>
          have files : ∀ file ∈ Program.chartFiles charts, Writes R fx (Settings.joinPath folder file.1) :=
            fun file there => own file.1 (List.mem_map_of_mem (f := Prod.fst) there)
          refine looks.bind (looks.writeFiles folder _ files) fun t => ?_
          generalize ((Program.writeFiles fx folder (Program.chartFiles charts)).run t).1 = written
          obtain ⟨path, fault⟩ | done := written
          · exact looks.fail prints _
          · exact looks.bind (prints.printError _) fun _ => looks.pure _

/-- After its refresh the detail page is printed, and written as charts if it has some. -/
theorem showDetail_after_refresh [Url.DomainNames] (client : Client) (options : Program.DetailOptions)
    (page : Pages.Detail) (s : σ)
    (writes : ∀ shown folder, page.refreshed? ((page.fetch fx client).run s).1 = some shown →
      options.chartsFolder = some folder → shown.charts.isSome →
        ∀ name ∈ Program.chartNames, Writes R fx (Settings.joinPath folder name)) :
    R ((page.refresh? fx client).run s).2 ((Program.showDetail fx console client options page).run s).2 := by
  rw [← Pages.Detail.refresh?_fst fx client page s] at writes
  unfold Program.showDetail
  rw [run_bind_eq]
  generalize (page.refresh? fx client).run s = refreshed at writes
  obtain ⟨_ | shown, later⟩ := refreshed
  · exact looks.refl later
  · refine (looks.bind (prints.printError _) fun _ => ?_) later
    refine looks.bind (prints.print _) fun _ => ?_
    cases hfolder : options.chartsFolder with
    | none => exact looks.pure _
    | some folder => exact looks.writeCharts prints shown folder (writes shown folder rfl hfolder)

theorem showHome_after_load [Url.DomainNames] (settings : Settings) (client : Client)
    (store : LocalStore) (s : σ) :
    let loggedIn := settings.backend.accessToken.any fun token => token != ""
    R ((Pages.Home.load fx client store loggedIn).run s).2
      ((Program.showHome fx console settings client store).run s).2 := by
  intro loggedIn
  simp only [Program.showHome, run_bind_eq]
  generalize (Pages.Home.load fx client store _).run s = loaded
  exact looks.trans (prints.printError _ _) (prints.print _ _)

theorem showHome [Url.DomainNames] (sends : Sends R fx) (settings : Settings) (client : Client)
    {store : LocalStore} (writes : ∀ path, store.path = some path → Writes R fx path) :
    Moves R (Program.showHome fx console settings client store) := fun s =>
  looks.trans (looks.home sends writes client _ s) (looks.showHome_after_load prints settings client store s)

theorem showAbout_after_load [Url.DomainNames] (client : Client) (store : LocalStore) (s : σ) :
    R ((Pages.About.load fx client store).run s).2
      ((Program.showAbout fx console client store).run s).2 := by
  simp only [Program.showAbout, run_bind_eq]
  generalize (Pages.About.load fx client store).run s = loaded
  exact looks.trans (prints.printError _ _) (prints.print _ _)

theorem showAbout [Url.DomainNames] (sends : Sends R fx) (client : Client) {store : LocalStore}
    (writes : ∀ path, store.path = some path → Writes R fx path) :
    Moves R (Program.showAbout fx console client store) := fun s =>
  looks.trans (looks.about sends writes client s) (looks.showAbout_after_load prints client store s)

theorem writeSettings {path : String} (writes : Writes R fx path) :
    Moves R (Program.writeSettings fx console path) := by
  refine looks.bind (writes.writeFile _) fun s => ?_
  cases ((fx.writeFile path Settings.starter).run s).1 with
  | error fault => exact looks.fail prints _
  | ok done => exact looks.bind (prints.print _) fun _ => looks.pure _

theorem createSettings (env : Environment) (output : Option String) (force : Bool)
    (writes : ∀ path, output.or (Settings.defaultPath? env) = some path → Writes R fx path) :
    Moves R (Program.createSettings fx console env output force) := by
  unfold Program.createSettings
  cases hpath : output.or (Settings.defaultPath? env) with
  | none => exact looks.fail prints _
  | some path =>
      have own := writes path hpath
      refine looks.bind (looks.fileExists path) fun s => ?_
      split
      · exact looks.bind (looks.fail prints _) fun _ => looks.pure _
      · dsimp only
        split
        · exact looks.bind (looks.pure _) fun _ => looks.writeSettings prints own
        · refine looks.bind (own.makeFolders _) fun t => ?_
          cases ((fx.makeFolders ((Files.parent? path).getD "")).run t).1 with
          | error fault => exact looks.fail prints _
          | ok done => exact looks.writeSettings prints own

end Looks

/-! ## Worlds -/

namespace World

/-- A part of worlds that is no record of what was logged or printed. -/
structure Silent (part : World → β) : Prop where
  events : ∀ world events, part { world with events } = part world
  lines : ∀ world lines, part { world with lines } = part world
  output : ∀ world output, part { world with output } = part world
  errors : ∀ world errors, part { world with errors } = part world

namespace Silent

variable {part : World → β} (silent : Silent part)

include silent

theorem looks : Looks (fun world later => part later = part world) effects where
  refl _ := rfl
  trans first second := second.trans first
  readFile _ _ := rfl
  fileExists _ _ := rfl
  now _ := rfl
  log _ world := silent.events world _

theorem prints : Prints (fun world later => part later = part world) console where
  print _ world := silent.output world _
  printError _ world := silent.errors world _
  logLine _ _ world := silent.lines world _

end Silent

end World

end UsageBoard
