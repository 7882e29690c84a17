import UsageBoard.Toml.Scalar
import UsageBoard.Toml.Table

/-!
# Reading TOML texts

`Toml.read?` reads a text line by line: a header selects the table to which the following lines
assign values.  A text is well formed as a whole or not at all.
-/

namespace UsageBoard.Toml

open UsageBoard.Document (Node Decoder DecodeError)

/-- Numbers in messages are written without an exponent part. -/
def numberLayout : Decimal.Layout := ⟨none, true, .toEven⟩

def skipGaps : (comment : Bool) → List Char → Option (List Char)
  | _, [] => some []
  | comment, c :: rest =>
      if c = '\n' then skipGaps false rest
      else if c = '\r' then if rest.head? = some '\n' then skipGaps comment rest else none
      else if comment then if isPlain c then skipGaps true rest else none
      else if c = '#' then skipGaps true rest
      else if isBlank c then skipGaps false rest
      else some (c :: rest)

/-- What follows the end of a line, before which only blanks and a comment may stand. -/
def afterLine? (cs : List Char) : Option (List Char) :=
  let rest :=
    match skipBlanks cs with
    | '#' :: comment => comment.dropWhile isPlain
    | rest => rest
  if rest.isEmpty then some [] else afterBreak? rest

def isBareKeyChar (c : Char) : Bool := c.isAlphanum || c == '_' || c == '-'

def readKeyPart? (cs : List Char) : Option (String × List Char) :=
  match cs.takeWhile isBareKeyChar with
  | [] => readLineString? cs
  | part => some (String.ofList part, cs.dropWhile isBareKeyChar)

/-- A key: the parts before its last part, and the last part. -/
abbrev Key := List String × String

def readKey? : (fuel : Nat) → List Char → Option (Key × List Char)
  | 0, _ => none
  | fuel + 1, cs => do
      let (part, rest) ← readKeyPart? (skipBlanks cs)
      match skipBlanks rest with
      | '.' :: rest => do
          let ((path, last), rest) ← readKey? fuel rest
          return ((part :: path, last), rest)
      | rest => return (([], part), rest)

/-- How many lists and inline tables may stand inside each other. -/
def nestingLimit : Nat := 80

mutual

/-- Reads a value in which lists and inline tables may nest `levels` deep; the fuel bounds the
number of parts. -/
def readValue? : (fuel levels : Nat) → List Char → Option (Node × List Char)
  | 0, _, _ => none
  | fuel + 1, levels, cs =>
      match cs with
      | '"' :: _ | '\'' :: _ => (readString? cs).map fun (text, rest) => (.text text, rest)
      | '[' :: rest =>
          if levels = 0 then none
          else (readItems? fuel (levels - 1) rest).map fun (items, rest) => (.list items, rest)
      | '\x7b' :: rest =>
          if levels = 0 then none
          else (readMembers? fuel (levels - 1) [] rest).map fun (members, rest) =>
            (members.toNode, rest)
      | _ => readScalar? cs

def readItems? : (fuel levels : Nat) → List Char → Option (List Node × List Char)
  | 0, _, _ => none
  | fuel + 1, levels, cs => do
      match ← skipGaps false cs with
      | ']' :: rest => return ([], rest)
      | cs => do
          let (item, rest) ← readValue? fuel levels cs
          match ← skipGaps false rest with
          | ',' :: rest => do
              let (items, rest) ← readItems? fuel levels rest
              return (item :: items, rest)
          | ']' :: rest => return ([item], rest)
          | _ => none

/-- Reads the members of an inline table up to its end, given those already read. -/
def readMembers? : (fuel levels : Nat) → Members → List Char → Option (Members × List Char)
  | 0, _, _, _ => none
  | fuel + 1, levels, members, cs => do
      match ← skipGaps false cs with
      | '\x7d' :: rest => return (members, rest)
      | cs => do
          let ((path, key), rest) ← readKey? fuel cs
          let (node, rest) ← readValue? fuel levels (skipBlanks (← after? '=' rest))
          let members ← members.assign node path key
          match ← skipGaps false rest with
          | ',' :: rest => readMembers? fuel levels members rest
          | '\x7d' :: rest => return (members, rest)
          | _ => none

end

/-- Reads lines into the root table; `selected` are the keys of the last header. -/
def readLines? : (fuel : Nat) → (selected : List String) → Members → List Char → Option Members
  | 0, _, _, _ => none
  | fuel + 1, selected, root, cs =>
      match skipBlanks cs with
      | [] => some root
      | '[' :: '[' :: rest => do
          let ((path, key), rest) ← readKey? fuel rest
          let rest ← afterLine? (← after? ']' (← after? ']' rest))
          readLines? fuel (path ++ [key]) (← root.within (Members.defineElement key) path) rest
      | '[' :: rest => do
          let ((path, key), rest) ← readKey? fuel rest
          let rest ← afterLine? (← after? ']' rest)
          readLines? fuel (path ++ [key]) (← root.within (Members.define key) path) rest
      | c :: rest =>
          match afterLine? (c :: rest) with
          | some rest => readLines? fuel selected root rest
          | none => do
              let ((path, key), rest) ← readKey? fuel (c :: rest)
              let (node, rest) ← readValue? fuel nestingLimit (skipBlanks (← after? '=' rest))
              let root ← root.within (Members.assign node path key) selected
              readLines? fuel selected root (← afterLine? rest)

def byteOrderMark : Char := '\ufeff'

def read? (text : String) : Option Node :=
  let cs :=
    match text.toList with
    | c :: rest => if c = byteOrderMark then rest else c :: rest
    | [] => []
  (readLines? (2 * cs.length + 2) [] [] cs).map Members.toNode

def decode {α : Type} (decoder : Decoder α) (text : String) : Except DecodeError α :=
  match read? text with
  | some root => decoder Document.depthLimit root
  | none => .error .malformed

end UsageBoard.Toml
