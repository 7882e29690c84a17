import UsageBoard.Document.Decoder
import UsageBoard.Json.Number
import UsageBoard.Json.Value

/-!
# Reading JSON texts

`Json.read` reads a text into a document as far as it is well formed.  Strings are read with their
escapes; one with half of a surrogate pair has the form of a string and no value.
-/

namespace UsageBoard.Json

open UsageBoard.Document (Node Reading Decoder DecodeError)

/-- The characters that may stand between the parts of a text. -/
def isBlank (c : Char) : Bool := c == ' ' || c == '\n' || c == '\t' || c == '\r'

def skipBlanks (cs : List Char) : List Char := cs.dropWhile isBlank

def hexValue? (c : Char) : Option Nat :=
  if c.isDigit then some (c.toNat - '0'.toNat)
  else if 'a' ≤ c ∧ c ≤ 'f' then some (c.toNat - 'a'.toNat + 10)
  else if 'A' ≤ c ∧ c ≤ 'F' then some (c.toNat - 'A'.toNat + 10)
  else none

def hexUnit? (a b c d : Char) : Option Nat := do
  let a ← hexValue? a
  let b ← hexValue? b
  let c ← hexValue? c
  let d ← hexValue? d
  return ((a * 16 + b) * 16 + c) * 16 + d

/-- A string as far as it was read: its characters, unless it has no value, and the text after it;
`none` if it does not end. -/
abbrev StringReading := Option (Option (List Char) × List Char)

def StringReading.push (c : Char) (reading : StringReading) : StringReading :=
  reading.map fun (found, rest) => (found.map (c :: ·), rest)

/-- A string without a value. -/
def StringReading.spoil (reading : StringReading) : StringReading :=
  reading.map fun (_, rest) => (none, rest)

/-- The character that a backslash and a letter stand for. -/
def simpleEscape? (c : Char) : Option Char :=
  if c = '"' ∨ c = '\\' ∨ c = '/' then some c
  else if c = 'b' then some '\x08'
  else if c = 'f' then some '\x0c'
  else if c = 'n' then some '\n'
  else if c = 'r' then some '\r'
  else if c = 't' then some '\t'
  else none

def pairChar (high low : Nat) : Char :=
  Char.ofNat (0x10000 + (high - 0xD800) * 0x400 + (low - 0xDC00))

/-- A string without a value if half a surrogate pair is pending. -/
def StringReading.settle (pending : Option Nat) (reading : StringReading) : StringReading :=
  if pending.isSome then reading.spoil else reading

/-- Reads a string after its opening quote.  The stain, if there is one, stands for a byte that is
no text; `pending` is the first half of a surrogate pair, if it was just read. -/
def readString (stain : Option Char) : (pending : Option Nat) → List Char → StringReading
  | _, [] => none
  | pending, '"' :: rest => StringReading.settle pending (some (some [], rest))
  | pending, '\\' :: 'u' :: a :: b :: c :: d :: rest =>
      match hexUnit? a b c d with
      | none => none
      | some unit =>
          if 0xD800 ≤ unit ∧ unit ≤ 0xDBFF then (readString stain (some unit) rest).settle pending
          else if 0xDC00 ≤ unit ∧ unit ≤ 0xDFFF then
            match pending with
            | some high => (readString stain none rest).push (pairChar high unit)
            | none => (readString stain none rest).spoil
          else ((readString stain none rest).push (Char.ofNat unit)).settle pending
  | pending, '\\' :: c :: rest =>
      match simpleEscape? c with
      | none => none
      | some c => ((readString stain none rest).push c).settle pending
  | pending, c :: rest =>
      if c = '\\' ∨ c.toNat < 32 then none
      else if stain = some c then (readString stain none rest).spoil
      else ((readString stain none rest).push c).settle pending

/-- A node and the text after it; no text if reading failed inside the node. -/
abbrev NodeReading (α : Type) := α × Option (List Char)

def readWord (word : List Char) (node : Node) (cs : List Char) : NodeReading Node :=
  if word.isPrefixOf cs then (node, some (cs.drop word.length)) else (.broken, none)

def readScalar (stain : Option Char) : List Char → NodeReading Node
  | '"' :: rest =>
      match readString stain none rest with
      | none => (.broken, none)
      | some (none, rest) => (.unusable, some rest)
      | some (some found, rest) => (.text (String.ofList found), some rest)
  | 'n' :: rest => readWord "null".toList .null ('n' :: rest)
  | 't' :: rest => readWord "true".toList (.bool true) ('t' :: rest)
  | 'f' :: rest => readWord "false".toList (.bool false) ('f' :: rest)
  | cs =>
      match Numeral.lex cs with
      | none => (.broken, none)
      | some (numeral, rest) => (numeral.node, some rest)

mutual

/-- Reads a value; the fuel bounds the number of parts. -/
def readNode (stain : Option Char) : (fuel : Nat) → List Char → NodeReading Node
  | 0, _ => (.broken, none)
  | fuel + 1, cs =>
      match skipBlanks cs with
      | '[' :: rest =>
          match skipBlanks rest with
          | ']' :: after => (.list [], some after)
          | rest => let (items, after) := readItems stain fuel rest; (.list items, after)
      | '\x7b' :: rest =>
          match skipBlanks rest with
          | '\x7d' :: after => (.table [], some after)
          | rest => let (members, after) := readMembers stain fuel rest; (.table members, after)
      | cs => readScalar stain cs

def readItems (stain : Option Char) : (fuel : Nat) → List Char → NodeReading (List Node)
  | 0, _ => ([.broken], none)
  | fuel + 1, cs =>
      match readNode stain fuel cs with
      | (item, none) => ([item], none)
      | (item, some rest) =>
          match skipBlanks rest with
          | ',' :: rest => let (items, after) := readItems stain fuel rest; (item :: items, after)
          | ']' :: rest => ([item], some rest)
          | _ => ([item, .broken], none)

def readMembers (stain : Option Char) : (fuel : Nat) → List Char →
    NodeReading (List (Option String × Node))
  | 0, _ => ([(none, .broken)], none)
  | fuel + 1, cs =>
      match skipBlanks cs with
      | '"' :: rest =>
          match readString stain none rest with
          | none => ([(none, .broken)], none)
          | some (found, rest) =>
              let key := found.map String.ofList
              match skipBlanks rest with
              | ':' :: rest =>
                  match readNode stain fuel rest with
                  | (value, none) => ([(key, value)], none)
                  | (value, some rest) =>
                      match skipBlanks rest with
                      | ',' :: rest =>
                          let (members, after) := readMembers stain fuel rest
                          ((key, value) :: members, after)
                      | '\x7d' :: rest => ([(key, value)], some rest)
                      | _ => ([(key, value), (none, .broken)], none)
              | _ => ([(key, .broken)], none)
      | _ => ([(none, .broken)], none)

end

def readChars (stain : Option Char) (cs : List Char) : Reading :=
  match readNode stain (2 * cs.length + 2) cs with
  | (root, none) => ⟨root, false⟩
  | (root, some rest) => ⟨root, (skipBlanks rest).isEmpty⟩

def read (text : String) : Reading := readChars none text.toList

/-- Decodes a text; it is the inverse of writing. -/
def decode {α : Type} (decoder : Decoder α) (text : String) : Except DecodeError α :=
  (read text).decode decoder

end UsageBoard.Json
