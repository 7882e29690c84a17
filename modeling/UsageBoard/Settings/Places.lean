import UsageBoard.Environment
import UsageBoard.Text.Blank

/-!
# Places of files

The file of the settings and the local store have default places below the user's folders.
-/

namespace UsageBoard.Settings

/-- Appends a name to a path; an absolute name takes its place. -/
def joinPath (path name : String) : String :=
  if Text.startsWith name "/" then name
  else if path = "" ∨ path.toList.getLast? = some '/' then path ++ name
  else path ++ "/" ++ name

/-- A folder that a variable gives as an absolute path, else one below the home. -/
def folder? (env : Environment) (name : String) (belowHome : List String) : Option String :=
  let below := env.home?.map fun home => belowHome.foldl joinPath home
  match env.value? name with
  | some value => if Text.startsWith value.shown "/" then some value.shown else below
  | none => below

def programFolder : String := "harbor-dashboard"

def defaultPath? (env : Environment) : Option String :=
  (folder? env "XDG_CONFIG_HOME" [".config"]).map fun folder =>
    joinPath (joinPath folder programFolder) "config.toml"

def defaultStorePath? (env : Environment) : Option String :=
  (folder? env "XDG_DATA_HOME" [".local", "share"]).map fun folder =>
    joinPath (joinPath folder programFolder) "local_storage.json"

def storePath? (env : Environment) (given : Option String) : Option String :=
  match given with
  | some path => some path
  | none => defaultStorePath? env

end UsageBoard.Settings
