import UsageBoard.Decimal.Layout

/-!
# JSON values and their text

`Json` is what the program writes.  `Json.compact` has no blanks; `Json.pretty` indents by two
spaces.  Members are written in the order in which they stand.
-/

namespace UsageBoard

inductive Json where
  | null
  | bool (value : Bool)
  | integer (value : Int)
  | real (value : Float)
  | text (value : String)
  | list (items : List Json)
  | object (members : List (String × Json))
deriving Inhabited

namespace Json

/-- Numbers have a point or an exponent part, which is used from `10 ^ 16` up and below
`10 ^ -5`. -/
def numberLayout : Decimal.Layout := ⟨some (-5, 16), true, .toEven⟩

def hexDigit (n : Nat) : Char :=
  if n < 10 then Char.ofNat ('0'.toNat + n) else Char.ofNat ('a'.toNat + (n - 10))

def escapedChar (c : Char) : List Char :=
  if c = '"' then ['\\', '"']
  else if c = '\\' then ['\\', '\\']
  else if c = '\n' then ['\\', 'n']
  else if c = '\r' then ['\\', 'r']
  else if c = '\t' then ['\\', 't']
  else if c.toNat = 8 then ['\\', 'b']
  else if c.toNat = 12 then ['\\', 'f']
  else if c.toNat < 32 then ['\\', 'u', '0', '0', hexDigit (c.toNat / 16), hexDigit (c.toNat % 16)]
  else [c]

def stringChars (s : String) : List Char :=
  '"' :: s.toList.flatMap escapedChar ++ ['"']

def integerChars (n : Int) : List Char :=
  (if n < 0 then ['-'] else []) ++ Decimal.naturalDigits n.natAbs

/-- A number; what is not finite is written as null. -/
def realChars (x : Float) : List Char :=
  match Decimal.Magnitude.of x with
  | .finite value => (if Decimal.isNegative x then ['-'] else []) ++ numberLayout.magnitude value
  | _ => "null".toList

def scalarChars : Json → List Char
  | .bool true => "true".toList
  | .bool false => "false".toList
  | .integer value => integerChars value
  | .real value => realChars value
  | .text value => stringChars value
  | _ => "null".toList

/-- How the parts of a list or an object are separated, at a given depth. -/
structure Style where
  opening : Nat → List Char
  closing : Nat → List Char
  separator : Nat → List Char
  colon : List Char

def Style.compact : Style := ⟨fun _ => [], fun _ => [], fun _ => [','], [':']⟩

def lineBreak (depth : Nat) : List Char := '\n' :: List.replicate (2 * depth) ' '

/-- Each part on a line of its own, two spaces further in. -/
def Style.pretty : Style :=
  ⟨fun depth => lineBreak (depth + 1), lineBreak, fun depth => ',' :: lineBreak (depth + 1), [':', ' ']⟩

mutual

def chars (style : Style) (depth : Nat) : Json → List Char
  | .list [] => ['[', ']']
  | .list (item :: items) =>
      '[' :: style.opening depth ++ chars style (depth + 1) item ++ itemChars style depth items ++
        style.closing depth ++ [']']
  | .object [] => ['\x7b', '\x7d']
  | .object ((key, value) :: members) =>
      '\x7b' :: style.opening depth ++ stringChars key ++ style.colon ++ chars style (depth + 1) value ++
        memberChars style depth members ++ style.closing depth ++ ['\x7d']
  | scalar => scalarChars scalar

def itemChars (style : Style) (depth : Nat) : List Json → List Char
  | [] => []
  | item :: items =>
      style.separator depth ++ chars style (depth + 1) item ++ itemChars style depth items

def memberChars (style : Style) (depth : Nat) : List (String × Json) → List Char
  | [] => []
  | (key, value) :: members =>
      style.separator depth ++ stringChars key ++ style.colon ++ chars style (depth + 1) value ++
        memberChars style depth members

end

def compact (value : Json) : String := String.ofList (chars .compact 0 value)

def pretty (value : Json) : String := String.ofList (chars .pretty 0 value)

/-- Inserts a member in the order of the keys, in front of those with an equal key. -/
def insertMember (member : String × Json) : List (String × Json) → List (String × Json)
  | [] => [member]
  | other :: rest =>
      if other.1 < member.1 then other :: insertMember member rest else member :: other :: rest

mutual

/-- The same value with the members of all its objects in the order of their keys. -/
def sorted : Json → Json
  | .list items => .list (sortedItems items)
  | .object members => .object (sortedMembers members)
  | scalar => scalar

def sortedItems : List Json → List Json
  | [] => []
  | item :: items => sorted item :: sortedItems items

def sortedMembers : List (String × Json) → List (String × Json)
  | [] => []
  | (key, value) :: members => insertMember (key, sorted value) (sortedMembers members)

end

def ofOption {α : Type} (encode : α → Json) : Option α → Json
  | none => .null
  | some value => encode value

end Json

end UsageBoard
