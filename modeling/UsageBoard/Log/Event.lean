import UsageBoard.Json.Value
import UsageBoard.Log.Level

/-!
# Events that are logged
-/

namespace UsageBoard.Log

structure Event where
  level : Level
  /-- The part of the program in which it happened, below the program's own name. -/
  source : List String
  message : String
  fields : List (String × String)
deriving DecidableEq, Repr

namespace Event

def programName : String := "harbor_dashboard"

def target (event : Event) : String := "::".intercalate (programName :: event.source)

def members (event : Event) : List (String × Json) :=
  [("level", .text event.level.label),
    ("fields", .object (("message", .text event.message) ::
      event.fields.map fun (name, value) => (name, .text value))),
    ("target", .text event.target)]

end Event

end UsageBoard.Log
