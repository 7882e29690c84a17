import UsageBoard.Files.Fault
import UsageBoard.Settings.Basic
import UsageBoard.Settings.Expansion
import UsageBoard.Toml.Parser
import UsageBoard.Url.Parser

/-!
# Reading settings

A text of settings is expanded, read and checked; `Settings.ofText` succeeds only with settings that
can be used.
-/

namespace UsageBoard.Settings

open UsageBoard.Document (DecodeError)

inductive Misfit where
  | address (url : String) (why : Url.UrlError)
  | scheme (name : String)
  | timeout
  | quotaPerUnit
  | offset (minutes : Int32)
deriving DecidableEq

def Misfit.message : Misfit → String
  | address url why => "backend.base_url '" ++ url ++ "' is invalid: " ++ why.message
  | scheme name => "backend.base_url must use http or https, got '" ++ name ++ "'"
  | timeout => "backend.timeout_secs must be greater than zero"
  | quotaPerUnit => "display.quota_per_unit must be a positive number"
  | offset minutes => "display.utc_offset_minutes " ++ toString minutes.toInt ++ " is out of range"

inductive SettingsError where
  | unreadable (path : String) (fault : Files.Fault)
  | malformed (fault : DecodeError)
  | missingVariable (name : String)
  | unusable (misfit : Misfit)

def SettingsError.message : SettingsError → String
  | unreadable path fault => "Failed to read config file " ++ path ++ ": " ++ fault.message
  | malformed fault => "Failed to parse config: " ++ fault.message Toml.numberLayout
  | missingVariable name => "Environment variable not found: " ++ name
  | unusable misfit => "Configuration validation error: " ++ misfit.message

def webSchemes : List String := ["http", "https"]

def Backend.check [Url.DomainNames] (backend : Backend) : Except Misfit Unit :=
  match Url.parse backend.baseUrl with
  | .error why => .error (.address backend.baseUrl why)
  | .ok url =>
      if !webSchemes.contains url.scheme then .error (.scheme url.scheme)
      else if backend.timeoutSeconds = some 0 then .error .timeout
      else .ok ()

def Display.check (display : Display) : Except Misfit Unit :=
  if !(display.quotaPerUnit.isFinite && decide (0.0 < display.quotaPerUnit)) then
    .error .quotaPerUnit
  else
    match display.offsetMinutes with
    | none => .ok ()
    | some minutes => if (offsetOf? minutes).isSome then .ok () else .error (.offset minutes)

/-- Whether settings can be used; the first misfit otherwise. -/
def check [Url.DomainNames] (settings : Settings) : Except Misfit Unit := do
  settings.backend.check
  settings.display.check

def ofText [Url.DomainNames] (env : Environment) (text : String) : Except SettingsError Settings := do
  let expanded ← (expand env text).mapError .missingVariable
  let settings ← (Toml.decode decoder expanded).mapError .malformed
  settings.check.mapError .unusable
  return settings

def starterLines : List String :=
  ["# Harbor dashboard configuration",
    "",
    "[backend]",
    "base_url = \"http://127.0.0.1:3000\"",
    "# access_token = \"$\x7bHARBOR_ACCESS_TOKEN\x7d\"",
    "# user_id = 1",
    "# admin = false",
    "# timeout_secs = 30",
    "",
    "[display]",
    "quota_per_unit = 500000",
    "display_in_currency = true",
    "# utc_offset_minutes = 480",
    "",
    "[observability.logging]",
    "level = \"info\"",
    "format = \"compact\""]

def starter : String := String.join (starterLines.map (· ++ "\n"))

end UsageBoard.Settings
