import UsageBoard.Decimal.Layout
import UsageBoard.Decimal.Reading
import UsageBoard.Document.Node
import UsageBoard.Text.Quoted
import UsageBoard.Words

/-!
# Decoding documents

A decoder turns a node into a value or says why it cannot.  A record is decoded from a table by
the names of its fields or from a list by their order; `Record` describes its fields, and faults
are found in the order of the text.
-/

namespace UsageBoard.Document

inductive DecodeError where
  /-- The text is not well formed, or not of a form that the type admits. -/
  | malformed
  | wrongType (found : Node) (expected : String)
  | wrongValue (found : Node) (expected : String)
  | wrongLength (count : Nat) (expected : String)
  | missingField (name : String)
  | unknownField (name : String) (known : List String)
  | duplicateField (name : String)
  | unknownVariant (name : String) (known : List String)
  | noVariant (union : String)
  | notWhole (number : Float)

/-- Whether an integer lies outside both ranges of 64 bits, signed and unsigned. -/
def isWide (n : Int) : Bool := decide (n < -(Words.int64End : Int)) || decide ((Words.uint64End : Int) ≤ n)

/-- An integer in the words of a message; a wide one with the type that holds it. -/
def integerDescription (n : Int) : String :=
  "integer `" ++ toString n ++ "`" ++
    (if !isWide n then "" else if n < Words.int128End then " as i128" else " as u128")

def nameList (names : List String) : String :=
  ", ".intercalate (names.map fun name => "`" ++ name ++ "`")

def Node.description (reals : Decimal.Layout) : Node → String
  | .null => "null"
  | .bool value => "boolean `" ++ (if value then "true" else "false") ++ "`"
  | .integer value => integerDescription value
  | .real value => "floating point `" ++ reals.text value ++ "`"
  | .text value => "string " ++ Text.quoted value
  | .list _ => "sequence"
  | .table _ => "map"
  | .unusable => "nothing"
  | .broken => "nothing"

namespace DecodeError

/-- The message of a fault, with numbers in the layout of the document's format. -/
def message (reals : Decimal.Layout) : DecodeError → String
  | malformed => "syntax error"
  | wrongType found expected => "invalid type: " ++ found.description reals ++ ", expected " ++ expected
  | wrongValue found expected => "invalid value: " ++ found.description reals ++ ", expected " ++ expected
  | wrongLength count expected => "invalid length " ++ toString count ++ ", expected " ++ expected
  | missingField name => "missing field `" ++ name ++ "`"
  | unknownField name known =>
      "unknown field `" ++ name ++ "`, " ++
        match known with
        | [] => "there are no fields"
        | [one] => "expected `" ++ one ++ "`"
        | [one, other] => "expected `" ++ one ++ "` or `" ++ other ++ "`"
        | _ => "expected one of " ++ nameList known
  | duplicateField name => "duplicate field `" ++ name ++ "`"
  | unknownVariant name known =>
      "unknown variant `" ++ name ++ "`, expected one of " ++ nameList known
  | noVariant union => "data did not match any variant of untagged enum " ++ union
  | notWhole number => "expected an integer, got " ++ Decimal.displayText number

end DecodeError

/-- Decodes a node below which lists and tables may nest `depth` levels deep. -/
abbrev Decoder (α : Type) := (depth : Nat) → Node → Except DecodeError α

/-- The levels of lists and tables that a document may have where it is decoded. -/
def depthLimit : Nat := 128

namespace Decoder

def mismatch (node : Node) (expected : String) : DecodeError :=
  match node with
  | .broken | .unusable => .malformed
  | found => .wrongType found expected

def string : Decoder String
  | _, .text value => .ok value
  | _, node => .error (mismatch node "a string")

def bool : Decoder Bool
  | _, .bool value => .ok value
  | _, node => .error (mismatch node "a boolean")

/-- An integer from `low` up to and without `high`; a wide one is not even of the type. -/
def integer (low high : Int) (expected : String) : Decoder Int
  | _, .integer value =>
      if low ≤ value ∧ value < high then .ok value
      else if isWide value then .error (.wrongType (.integer value) expected)
      else .error (.wrongValue (.integer value) expected)
  | _, node => .error (mismatch node expected)

def int64 : Decoder Int64 := fun depth node =>
  (integer (-Words.int64End) Words.int64End "i64" depth node).map Int64.ofInt

def int32 : Decoder Int32 := fun depth node =>
  (integer (-Words.int32End) Words.int32End "i32" depth node).map Int32.ofInt

def uint64 : Decoder UInt64 := fun depth node =>
  (integer 0 Words.uint64End "u64" depth node).map fun n => UInt64.ofNat n.toNat

/-- Any number that is not a wide integer; an integer becomes the nearest floating point number. -/
def real : Decoder Float
  | _, .real value => .ok value
  | _, .integer value =>
      if isWide value then .error (.wrongType (.integer value) "f64") else .ok (Decimal.ofInt value)
  | _, node => .error (mismatch node "f64")

/-- The integer of 64 bits that a number is; nothing is rounded or clamped. -/
def wholeNumber (value : Float) : Except DecodeError Int64 :=
  match (Decimal.whole? value).bind Words.int64? with
  | some n => .ok n
  | none => .error (.notWhole value)

/-- An integer, also one that is spelled with a fraction or an exponent. -/
def lenientInt64 : Decoder Int64
  | _, .integer n =>
      match Words.int64? n with
      | some n => .ok n
      | none => wholeNumber (Decimal.ofInt n)
  | _, .real value => wholeNumber value
  | depth, node => .error (if node.usable depth then .noVariant "Number" else .malformed)

def optional {α : Type} (item : Decoder α) : Decoder (Option α)
  | _, .null => .ok none
  | depth, node => (item depth node).map some

def nested {α : Type} (depth : Nat) (inside : Nat → Except DecodeError α) : Except DecodeError α :=
  if depth ≤ 1 then .error .malformed else inside (depth - 1)

def list {α : Type} (item : Decoder α) : Decoder (List α)
  | depth, .list items => nested depth fun inner => items.mapM (item inner)
  | _, node => .error (mismatch node "a sequence")

/-- The members of a table with keys of any name, in the order of the text. -/
def members {α : Type} (item : Decoder α) : Decoder (List (String × α))
  | depth, .table pairs => nested depth fun inner =>
      pairs.mapM fun (key, value) =>
        match key with
        | none => .error .malformed
        | some name => (item inner value).map fun x => (name, x)
  | _, node => .error (mismatch node "a map")

end Decoder

/-- How the fields of a record are looked up: the node of a field, if it is there, or the fault of
its absence. -/
structure Lookup where
  node? : String → Option Node
  absent : String → DecodeError

/-- The description of a record: its fields in order, and how its value is built from them. -/
structure Record (α : Type) where
  fields : List (String × Decoder Unit)
  build : (depth : Nat) → Lookup → Except DecodeError α

namespace Record

def pure {α : Type} (value : α) : Record α :=
  ⟨[], fun _ _ => .ok value⟩

def seq {α β : Type} (f : Record (α → β)) (x : Unit → Record α) : Record β :=
  ⟨f.fields ++ (x ()).fields, fun depth lookup => do
    let g ← f.build depth lookup
    let value ← (x ()).build depth lookup
    return g value⟩

instance : Applicative Record where
  pure := pure
  seq := seq

/-- A field with a value for when it is absent, or one that must be there. -/
def fieldWith {α : Type} (name : String) (decode : Decoder α) (default : Option α) : Record α :=
  ⟨[(name, fun depth node => (decode depth node).map fun _ => ())], fun depth lookup =>
    match lookup.node? name, default with
    | some node, _ => decode depth node
    | none, some value => .ok value
    | none, none => .error (lookup.absent name)⟩

def required {α : Type} (name : String) (decode : Decoder α) : Record α :=
  fieldWith name decode none

def defaulted {α : Type} (name : String) (decode : Decoder α) (default : α) : Record α :=
  fieldWith name decode (some default)

def optional {α : Type} (name : String) (decode : Decoder α) : Record (Option α) :=
  fieldWith name (Decoder.optional decode) (some none)

structure Leniency where
  /-- Members of a table that are no fields are skipped. -/
  unknownMembers : Bool
  /-- Items of a list beyond the fields are skipped. -/
  extraItems : Bool

def Leniency.data : Leniency := ⟨true, false⟩

def Leniency.settings : Leniency := ⟨false, true⟩

/-- Checks the members of a table in order, given the fields already seen. -/
def checkMembers {α : Type} (record : Record α) (leniency : Leniency) (depth : Nat) :
    (seen : List String) → List (Option String × Node) → Except DecodeError Unit
  | _, [] => .ok ()
  | _, (none, _) :: _ => .error .malformed
  | seen, (some name, value) :: rest =>
      match record.fields.lookup name with
      | some check =>
          if name ∈ seen then .error (.duplicateField name)
          else do
            check depth value
            checkMembers record leniency depth (name :: seen) rest
      | none =>
          if leniency.unknownMembers = false then .error (.unknownField name (record.fields.map Prod.fst))
          else if value.intact then checkMembers record leniency depth seen rest
          else .error .malformed

def ofMembers (members : List (Option String × Node)) : Lookup :=
  ⟨fun name => members.lookup (some name), .missingField⟩

def ofItems {α : Type} (record : Record α) (expected : String) (items : List Node) : Lookup :=
  ⟨fun name => ((record.fields.map Prod.fst).zip items).lookup name, fun name =>
    .wrongLength ((record.fields.map Prod.fst).idxOf name)
      (expected ++ " with " ++ toString record.fields.length ++
        (if record.fields.length = 1 then " element" else " elements"))⟩

def decoder {α : Type} (record : Record α) (name : String) (leniency : Leniency) : Decoder α
  | depth, .table members => Decoder.nested depth fun inner => do
      record.checkMembers leniency inner [] members
      record.build inner (ofMembers members)
  | depth, .list items => Decoder.nested depth fun inner => do
      let value ← record.build inner (ofItems record ("struct " ++ name) items)
      if leniency.extraItems ∨ items.length ≤ record.fields.length then return value else .error .malformed
  | _, node => .error (Decoder.mismatch node ("struct " ++ name))

end Record

def Reading.decode {α : Type} (reading : Reading) (decode : Decoder α) : Except DecodeError α := do
  let value ← decode depthLimit reading.root
  if reading.complete then return value else .error .malformed

end UsageBoard.Document
