import UsageBoard.Log.Filter
import UsageBoard.Pages.Footer
import UsageBoard.Program.Arguments
import UsageBoard.Program.Text
import UsageBoard.Settings.Loading

/-!
# A run of the program

A run reads its arguments and settings, does what it is told, and ends with a code: zero if it did, one
if it could not, and two if the arguments call for nothing.
-/

namespace UsageBoard.Program

open UsageBoard.Backend (Client)
open UsageBoard.Pages
open UsageBoard.Store (Edit)
open UsageBoard.Usage (Granularity)

structure Console (m : Type → Type) where
  print : (text : String) → m Unit
  printError : (text : String) → m Unit
  logLine : Settings.Logging → Log.Event → m Unit

variable {m : Type → Type} [Monad m]

def name : String := "harbor-dashboard"

def usage : String :=
  "Usage: " ++ name ++ " [--config CONFIG] COMMAND\n\n" ++
    "Commands: detail, home, about, footer, init, help\n"

def fail (console : Console m) (text : String) : m Nat := do
  console.printError (text ++ "\n")
  return 1

def halt (console : Console m) : Halt → m Nat
  | .version => do
      console.print (name ++ " " ++ Backend.version ++ "\n")
      return 0
  | .help => do
      console.print usage
      return 0
  | .usage => do
      console.printError usage
      return 2

def createdText (path : String) : String :=
  "Created config file: " ++ path ++ "\n\n" ++
    "Set backend.base_url and backend.access_token, then run:\n  " ++ name ++ " detail\n"

def writeSettings (fx : Effects m) (console : Console m) (path : String) : m Nat := do
  match ← fx.writeFile path Settings.starter with
  | .error fault => fail console ("Failed to write config file: " ++ fault.message)
  | .ok () => do
      console.print (createdText path)
      return 0

def createSettings (fx : Effects m) (console : Console m) (env : Environment)
    (output : Option String) (force : Bool) : m Nat := do
  match output.or (Settings.defaultPath? env) with
  | none =>
      fail console "Could not determine default config path. Please specify one with --output."
  | some path => do
      let found ← fx.fileExists path
      if found && !force then
        return ← fail console
          ("Config file already exists: " ++ path ++ "\nUse --force to overwrite.")
      let folder := (Files.parent? path).getD ""
      let made ← if folder = "" then pure (.ok ()) else fx.makeFolders folder
      match made with
      | .error fault =>
          fail console ("Failed to create directory " ++ folder ++ ": " ++ fault.message)
      | .ok () => writeSettings fx console path

def openStore (fx : Effects m) (env : Environment) (settings : Settings) : m LocalStore := do
  match Settings.storePath? env settings.storePath with
  | some path => LocalStore.openFile fx path
  | none => do
      fx.log ⟨.warn, [], "Could not determine a data directory, local store will not persist", []⟩
      return LocalStore.inMemory

def chartFiles (charts : DetailCharts) : List (String × Json) :=
  [("call_count.json", charts.callCount), ("consumption.json", charts.consumption),
    ("token_cache.json", charts.tokenCache)]

def writeFiles (fx : Effects m) (folder : String) : List (String × Json) →
    m (Except (String × Files.Fault) Unit)
  | [] => return .ok ()
  | (file, chart) :: rest => do
      let path := Settings.joinPath folder file
      match ← fx.writeFile path chart.pretty with
      | .error fault => return .error (path, fault)
      | .ok () => writeFiles fx folder rest

def writeCharts (fx : Effects m) (console : Console m) (page : Detail) (folder : String) :
    m Nat := do
  match page.charts with
  | none => do
      console.printError "No usage data loaded, charts not written\n"
      return 0
  | some charts =>
      match ← fx.makeFolders folder with
      | .error fault =>
          fail console ("Failed to create directory " ++ folder ++ ": " ++ fault.message)
      | .ok () =>
          match ← writeFiles fx folder (chartFiles charts) with
          | .error (path, fault) => fail console ("Failed to write " ++ path ++ ": " ++ fault.message)
          | .ok () => do
              console.printError ("Charts written to " ++ folder ++ "\n")
              return 0

def DetailOptions.query (options : DetailOptions) (granularity : Granularity) (now : Int64) :
    DetailQuery :=
  let first := DetailQuery.initial granularity now
  { first with
    start := options.start.getD first.start
    stop := options.stop.getD first.stop
    username := options.username.getD ""
    modelName := options.modelName.getD "" }

/-- The code of a run that stops because a time has no bucket, or its bucket no label. -/
def brokenCode : Nat := 101

/-- The detail page of a run before its refresh.  A granularity that is given is remembered. -/
def openDetail (fx : Effects m) (env : Environment) (settings : Settings) (store : LocalStore)
    (options : DetailOptions) : m Detail := do
  let stored ← store.granularity fx settings.display.granularity
  let query := options.query (options.granularity.getD stored) (← fx.now)
  let store ← store.editAll fx (options.granularity.map rememberGranularity).toList
  let format := settings.display.quotaFormat.withStored store.entries
  return Detail.initial format (settings.display.offsetIn env.zone) settings.backend.admin query

def showDetail [Url.DomainNames] (fx : Effects m) (console : Console m) (client : Client)
    (options : DetailOptions) (page : Detail) : m Nat := do
  match ← page.refresh? fx client with
  | none => return brokenCode
  | some page => do
      console.printError (notificationText page.view.notifications)
      console.print (if options.json then page.view.toJson.pretty ++ "\n"
        else detailText page.format page.view)
      match options.chartsFolder with
      | none => return 0
      | some folder => writeCharts fx console page folder

def showHome [Url.DomainNames] (fx : Effects m) (console : Console m) (settings : Settings)
    (client : Client) (store : LocalStore) : m Nat := do
  let loggedIn := settings.backend.accessToken.any fun token => token != ""
  let (page, _) ← Home.load fx client store loggedIn
  console.printError (notificationText page.notifications)
  console.print (homeText page)
  return 0

def showAbout [Url.DomainNames] (fx : Effects m) (console : Console m) (client : Client)
    (store : LocalStore) : m Nat := do
  let (page, _) ← About.load fx client store
  console.printError (notificationText page.notifications)
  console.print (aboutPageText page)
  return 0

/-- The store of a run, with the settings of the site as they are now. -/
def syncedStore [Url.DomainNames] (fx : Effects m) (env : Environment) (settings : Settings)
    (client : Client) : m LocalStore := do
  let (synced, store) ← (← openStore fx env settings).sync fx client
  match synced with
  | .ok _ => pure ()
  | .error fault =>
      fx.log ⟨.warn, [], "Failed to sync site status, using cached values",
        [("error", fault.message)]⟩
  return store

/-- Shows a page; the settings of the site are fetched first. -/
def showPage [Url.DomainNames] (fx : Effects m) (console : Console m) (env : Environment)
    (settings : Settings) (client : Client) (command : Command) : m Nat := do
  let store ← syncedStore fx env settings client
  match command with
  | .detail options => do
      showDetail fx console client options (← openDetail fx env settings store options)
  | .home => showHome fx console settings client store
  | .about => showAbout fx console client store
  | .footer => do
      console.print ((Footer.ofEntries store.entries).text ++ "\n")
      return 0
  | .init output force => createSettings fx console env output force

/-- The means of a run, which logs what the filter lets pass. -/
def logging (fx : Effects m) (console : Console m) (env : Environment)
    (settings : Settings.Logging) : Effects m :=
  let filter := Log.Filter.ofSettings env settings
  { fx with log := fun event => if filter.passes event then console.logLine settings event else pure () }

def runWithSettings [Url.DomainNames] (fx : Effects m) (console : Console m) (env : Environment)
    (path : Option String) (command : Command) : m Nat := do
  match ← Settings.load fx env path with
  | .error fault => fail console ("Failed to load config: " ++ fault.message)
  | .ok settings =>
      match Client.ofSettings settings.backend with
      | .error fault => fail console ("Error: " ++ fault.message)
      | .ok client =>
          showPage (logging fx console env settings.logging) console env settings client command

def run [Url.DomainNames] (fx : Effects m) (console : Console m) (env : Environment)
    (args : List String) : m Nat :=
  match Arguments.parse args with
  | .error reason => halt console reason
  | .ok ⟨.init output force, _⟩ => createSettings fx console env output force
  | .ok ⟨command, path⟩ => runWithSettings fx console env path command

end UsageBoard.Program
