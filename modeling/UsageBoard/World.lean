import UsageBoard.Effects
import UsageBoard.Files.Tree
import UsageBoard.Program.Run

/-!
# A world as a value

A world holds all that a run of the program deals with, so that the run is a function of it: files, a
clock, a backend, and what was sent, logged and printed.
-/

namespace UsageBoard

structure World where
  tree : Files.Tree
  /-- The folder from which paths lead. -/
  here : Files.Place
  clock : Int64
  /-- The reply to a request, given how many came before it. -/
  backend : (earlier : Nat) → Backend.Request → Option Backend.Reply
  /-- What was sent, the latest first. -/
  requests : List Backend.Request
  /-- What happened that could be logged, the latest first. -/
  events : List Log.Event
  /-- The lines of the log with the settings for them, the latest first. -/
  lines : List (Settings.Logging × Log.Event)
  output : String
  errors : String

namespace World

def initial (tree : Files.Tree) (here : Files.Place) (clock : Int64)
    (backend : Nat → Backend.Request → Option Backend.Reply) : World :=
  ⟨tree, here, clock, backend, [], [], [], "", ""⟩

/-- Changes the files of a world, unless that fails. -/
def changeTree (change : Files.Tree → Files.Place → Except Files.Fault Files.Tree) :
    StateM World (Except Files.Fault Unit) := fun world =>
  match change world.tree world.here with
  | .ok tree => (.ok (), { world with tree })
  | .error fault => (.error fault, world)

def effects : Effects (StateM World) where
  readFile path := fun world => (world.tree.read world.here path, world)
  writeFile path contents := changeTree fun tree here => tree.write here path contents.toUTF8
  makeFolders path := changeTree fun tree here => tree.makeFolders here path
  fileExists path := fun world => (world.tree.exists? world.here path, world)
  send request := fun world =>
    (world.backend world.requests.length request, { world with requests := request :: world.requests })
  now := fun world => (world.clock, world)
  log event := fun world => ((), { world with events := event :: world.events })

def console : Program.Console (StateM World) where
  print text := fun world => ((), { world with output := world.output ++ text })
  printError text := fun world => ((), { world with errors := world.errors ++ text })
  logLine settings event := fun world => ((), { world with lines := (settings, event) :: world.lines })

/-- Runs the program in a world: its exit code, and the world afterwards. -/
def run [Url.DomainNames] (world : World) (env : Environment) (args : List String) : Nat × World :=
  (Program.run effects console env args).run world

end World

end UsageBoard
