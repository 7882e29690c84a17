import UsageBoard.Document.Decoder
import UsageBoard.Log.Level
import UsageBoard.Quota
import UsageBoard.Usage.Granularity

/-!
# Settings

What a user can set: how the backend is reached, how amounts and times are shown, where the local
store is, and what is logged.  Every setting has a default.
-/

namespace UsageBoard

open UsageBoard.Document
open UsageBoard.Usage (Granularity)

namespace Settings

structure Backend where
  baseUrl : String
  accessToken : Option String
  userId : Option Int64
  admin : Bool
  timeoutSeconds : Option UInt64
deriving DecidableEq

structure Display where
  quotaPerUnit : Float
  inCurrency : Bool
  offsetMinutes : Option Int32
  granularity : Granularity

inductive LogFormat where
  | pretty
  | compact
  | json
deriving DecidableEq, Repr

structure Logging where
  level : Log.Level
  format : LogFormat
  timestamps : Bool
  fileLine : Bool
  /-- Further directives of the filter. -/
  filter : Option String
deriving DecidableEq

end Settings

structure Settings where
  backend : Settings.Backend
  display : Settings.Display
  storePath : Option String
  logging : Settings.Logging

namespace Settings

def Backend.default : Backend := ⟨"http://127.0.0.1:3000", none, none, false, none⟩

def Display.default : Display := ⟨500000.0, true, none, .hour⟩

def Logging.default : Logging := ⟨.info, .compact, true, false, none⟩

def default : Settings := ⟨Backend.default, Display.default, none, Logging.default⟩

namespace LogFormat

def all : List LogFormat := [pretty, compact, json]

def name : LogFormat → String
  | pretty => "pretty"
  | compact => "compact"
  | json => "json"

end LogFormat

def valueOf {α : Type} (options : List (String × α)) (name : String) : Except DecodeError α :=
  match options.lookup name with
  | some value => .ok value
  | none => .error (.unknownVariant name (options.map Prod.fst))

def isHollow : Node → Bool
  | .list [] => true
  | .table [] => true
  | _ => false

/-- One of several values by its name, or a table that gives the name an empty value. -/
def choice {α : Type} (options : List (String × α)) : Decoder α
  | _, .text name => valueOf options name
  | _, .table [(some name, node)] => do
      let value ← valueOf options name
      if isHollow node then return value else .error .malformed
  | _, _ => .error .malformed

def path : Decoder String
  | _, .text value => .ok value
  | _, node => .error (Decoder.mismatch node "path string")

namespace Backend

def record : Record Backend :=
  Backend.mk <$> Record.defaulted "base_url" Decoder.string default.baseUrl
    <*> Record.optional "access_token" Decoder.string
    <*> Record.optional "user_id" Decoder.int64
    <*> Record.defaulted "admin" Decoder.bool default.admin
    <*> Record.optional "timeout_secs" Decoder.uint64

def decoder : Decoder Backend := record.decoder "BackendConfig" .settings

end Backend

namespace Display

def record : Record Display :=
  Display.mk <$> Record.defaulted "quota_per_unit" Decoder.real default.quotaPerUnit
    <*> Record.defaulted "display_in_currency" Decoder.bool default.inCurrency
    <*> Record.optional "utc_offset_minutes" Decoder.int32
    <*> Record.defaulted "default_granularity"
          (choice (Granularity.all.map fun g => (g.name, g))) default.granularity

def decoder : Decoder Display := record.decoder "DisplayConfig" .settings

/-- The number of seconds in a day; a time zone is less than that away from UTC. -/
def daySeconds : Int := 86400

/-- The seconds in a number of minutes, if they can be counted in 32 bits. -/
def secondsIn? (minutes : Int32) : Option Int32 :=
  let exact := 60 * minutes.toInt
  if Int32.minValue.toInt ≤ exact ∧ exact ≤ Int32.maxValue.toInt then some (60 * minutes) else none

/-- The time zone so many seconds east of UTC, if there is such a zone. -/
def zone? (seconds : Int32) : Option Int :=
  if -daySeconds < seconds.toInt ∧ seconds.toInt < daySeconds then some seconds.toInt else none

/-- The seconds east of UTC of a time zone, if there is such a zone. -/
def offsetOf? (minutes : Int32) : Option Int := (secondsIn? minutes).bind zone?

/-- The seconds east of UTC, on a machine with an offset of its own. -/
def offsetIn (display : Display) (own : Int) : Int := (display.offsetMinutes.bind offsetOf?).getD own

def quotaFormat (display : Display) : QuotaFormat := ⟨display.quotaPerUnit, display.inCurrency⟩

end Display

namespace Logging

def record : Record Logging :=
  Logging.mk <$> Record.defaulted "level"
          (choice (Log.Level.all.map fun level => (level.name, level))) default.level
    <*> Record.defaulted "format" (choice (LogFormat.all.map fun format => (format.name, format)))
          default.format
    <*> Record.defaulted "timestamps" Decoder.bool default.timestamps
    <*> Record.defaulted "file_line" Decoder.bool default.fileLine
    <*> Record.optional "filter" Decoder.string

def decoder : Decoder Logging := record.decoder "LoggingConfig" .settings

/-- Logging has a section of its own inside the section on what can be observed. -/
def sectionDecoder : Decoder Logging :=
  (Record.defaulted "logging" decoder default).decoder "ObservabilityConfig" .settings

end Logging

def storeDecoder : Decoder (Option String) :=
  (Record.optional "path" path).decoder "StorageConfig" .settings

def record : Record Settings :=
  Settings.mk <$> Record.defaulted "backend" Backend.decoder Backend.default
    <*> Record.defaulted "display" Display.decoder Display.default
    <*> Record.defaulted "storage" storeDecoder none
    <*> Record.defaulted "observability" Logging.sectionDecoder Logging.default

def decoder : Decoder Settings := record.decoder "DashboardConfig" .settings

end Settings

end UsageBoard
