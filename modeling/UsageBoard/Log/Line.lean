import UsageBoard.Calendar
import UsageBoard.Log.Event
import UsageBoard.Settings.Basic

/-!
# Log lines

An event as it is written to the log.
-/

namespace UsageBoard.Log

open UsageBoard.Settings (LogFormat Logging)

def timeText (second : Int) : String :=
  let date := Calendar.Date.ofDay (second / Calendar.daySeconds)
  let inDay := (second % Calendar.daySeconds).toNat
  toString date.year ++ "-" ++ Calendar.twoDigits date.month ++ "-" ++ Calendar.twoDigits date.day ++
    "T" ++ Calendar.twoDigits (inDay / 3600) ++ ":" ++ Calendar.twoDigits (inDay / 60 % 60) ++ ":" ++
    Calendar.twoDigits (inDay % 60) ++ "Z"

namespace Event

def fieldText (event : Event) (separator : String) : String :=
  String.join (event.fields.map fun (name, value) => separator ++ name ++ "=" ++ value)

def line (event : Event) (logging : Logging) (second : Int) : String :=
  let time := if logging.timestamps then timeText second ++ " " else ""
  match logging.format with
  | .json => (Json.object (("timestamp", .text (timeText second)) :: event.members)).compact
  | .compact =>
      time ++ event.level.label ++ " " ++ event.target ++ ": " ++ event.message ++ event.fieldText " "
  | .pretty =>
      "  " ++ time ++ event.level.label ++ " " ++ event.target ++ ": " ++ event.message ++
        event.fieldText ", " ++ "\n"

end Event

end UsageBoard.Log
