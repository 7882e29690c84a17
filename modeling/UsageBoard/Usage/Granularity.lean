import UsageBoard.Document.Decoder
import UsageBoard.Json.Value
import UsageBoard.Text.Blank

/-!
# Granularity

The width of the time buckets to which usage is added up.
-/

namespace UsageBoard.Usage

inductive Granularity where
  | hour
  | day
  | week
deriving DecidableEq, Repr, Inhabited

namespace Granularity

def name : Granularity → String
  | hour => "hour"
  | day => "day"
  | week => "week"

def all : List Granularity := [hour, day, week]

def seconds : Granularity → Int
  | hour => 3600
  | day => 86400
  | week => 604800

/-- The start of the bucket of a point in time: the greatest multiple of the width that is not
after it, or nothing if that is below the range of 64-bit integers. -/
def truncate? (granularity : Granularity) (time : Int64) : Option Int64 :=
  Words.int64? (time.toInt / granularity.seconds * granularity.seconds)

def ofName? (name : String) : Option Granularity :=
  all.find? fun granularity => granularity.name == name

/-- Reads a name with blanks around it and letters of either case; the text in question otherwise. -/
def parse (text : String) : Except String Granularity :=
  let name := Text.lower (Text.trim text)
  match ofName? name with
  | some granularity => .ok granularity
  | none => .error name

def unknownMessage (text : String) : String :=
  "unknown granularity '" ++ text ++ "' (expected hour, day or week)"

open Document in
def ofVariant (name : String) : Except DecodeError Granularity :=
  match ofName? name with
  | some granularity => .ok granularity
  | none => .error (.unknownVariant name (all.map Granularity.name))

open Document in
/-- A granularity is its name, or a table with the name as its only key and a null. -/
def decoder : Decoder Granularity
  | _, .text name => ofVariant name
  | depth, .table members => Decoder.nested depth fun _ =>
      match members with
      | (some name, value) :: rest => do
          let granularity ← ofVariant name
          match value, rest with
          | .null, [] => return granularity
          | .null, _ => .error .malformed
          | node, _ => .error (Decoder.mismatch node "unit")
      | _ => .error .malformed
  | _, _ => .error .malformed

def toJson (granularity : Granularity) : Json := .text granularity.name

end Granularity

end UsageBoard.Usage
