/-!
# The environment

What the surroundings of the program say about the user: variables, the home, and the time zone.
-/

namespace UsageBoard

structure Variable where
  /-- The value; bytes that are no text show as replacement characters. -/
  shown : String
  exact : Bool
deriving DecidableEq, Repr

structure Environment where
  value? : String → Option Variable
  /-- The home that the operating system keeps for the user. -/
  accountHome : Option String
  /-- The seconds east of UTC of the machine's own time zone. -/
  zone : Int

namespace Environment

def text? (env : Environment) (name : String) : Option String :=
  (env.value? name).bind fun value => if value.exact then some value.shown else none

/-- The user's home; a variable that is not empty comes first. -/
def home? (env : Environment) : Option String :=
  match env.value? "HOME" with
  | some value => if value.shown = "" then env.accountHome else some value.shown
  | none => env.accountHome

end Environment

end UsageBoard
