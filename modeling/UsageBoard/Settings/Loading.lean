import UsageBoard.Effects
import UsageBoard.Settings.Places
import UsageBoard.Settings.Reading

/-!
# Loading settings

Settings are loaded from a given file, else from the default place, else they are the defaults.
-/

namespace UsageBoard.Settings

variable {m : Type → Type} [Monad m]

def ofFile [Url.DomainNames] (fx : Effects m) (env : Environment) (path : String) :
    m (Except SettingsError Settings) := do
  let found ← fx.readFile path
  return do
    let text ← (found.bind Files.text?).mapError (.unreadable path)
    ofText env text

def load [Url.DomainNames] (fx : Effects m) (env : Environment) : (path : Option String) →
    m (Except SettingsError Settings)
  | some path => ofFile fx env path
  | none =>
      match defaultPath? env with
      | none => return .ok default
      | some path => do
          if ← fx.fileExists path then ofFile fx env path else return .ok default

end UsageBoard.Settings
