import UsageBoard.Markup.Line

/-!
# What begins a block

Each function looks at the rest of a line, after its indentation.
-/

namespace UsageBoard.Markup.Marker

def runLength (c : Char) (cs : List Char) : Nat := (cs.takeWhile (· == c)).length

/-- Three or more stars, dashes or underscores, and blanks among them. -/
def isRule (cs : List Char) : Bool :=
  match cs with
  | c :: _ =>
      (c == '*' || c == '-' || c == '_') && decide (3 ≤ cs.count c) &&
        cs.all fun d => d == c || d == ' ' || d == '\t'
  | [] => false

def headingLevel? (cs : List Char) : Option Nat :=
  let level := runLength '#' cs
  let followed : Bool :=
    match cs.drop level with
    | [] => true
    | c :: _ => isLineBlank c
  if 1 ≤ level ∧ level ≤ 6 ∧ followed then some level else none

/-- The level of the heading that an underline makes of the paragraph above it. -/
def underlineLevel? (cs : List Char) : Option Nat :=
  match cs with
  | '=' :: _ => if isBlankRest (cs.dropWhile (· == '=')) then some 1 else none
  | '-' :: _ => if isBlankRest (cs.dropWhile (· == '-')) then some 2 else none
  | _ => none

def fence? (cs : List Char) : Option (Char × Nat) :=
  match cs with
  | c :: _ =>
      let count := runLength c cs
      if (c = '~' ∨ (c = '`' ∧ (cs.drop count).contains '`' = false)) ∧ 3 ≤ count then
        some (c, count)
      else none
  | [] => none

def closesFence (c : Char) (count : Nat) (cs : List Char) : Bool :=
  decide (count ≤ runLength c cs) && isBlankRest (cs.drop (runLength c cs))

structure ListMarker where
  /-- A bullet, or the character after a number. -/
  sign : Char
  number : Nat
  width : Nat
deriving Repr, DecidableEq

namespace ListMarker

def isBullet (marker : ListMarker) : Bool :=
  marker.sign == '-' || marker.sign == '+' || marker.sign == '*'

/-- A bullet, or a number of at most nine digits with a point or a parenthesis. -/
def lex? (cs : List Char) : Option ListMarker :=
  match cs with
  | [] => none
  | c :: _ =>
      if c = '-' ∨ c = '+' ∨ c = '*' then some ⟨c, 0, 1⟩
      else
        let digits := cs.takeWhile Char.isDigit
        let number := digits.foldl (fun n d => 10 * n + (d.toNat - '0'.toNat)) 0
        match cs.drop digits.length with
        | sign :: _ =>
            if digits ≠ [] ∧ digits.length ≤ 9 ∧ (sign = '.' ∨ sign = ')') then
              some ⟨sign, number, digits.length + 1⟩
            else none
        | [] => none

/-- A marker with a blank or nothing after it, unless the line is a rule. -/
def ofRest? (cs : List Char) : Option ListMarker :=
  match lex? cs with
  | none => none
  | some marker =>
      match cs.drop marker.width with
      | [] => if isRule cs then none else some marker
      | c :: _ => if (c = ' ' ∨ c = '\t') ∧ isRule cs = false then some marker else none

end ListMarker

inductive CellAlignment where
  | none
  | left
  | center
  | right
deriving Repr, DecidableEq

/-- The alignment of a cell of the line under a table's head; the cell must hold dashes. -/
def cellAlignment? (cell : List Char) : Option CellAlignment :=
  let cell := cell.filter (· != ' ')
  if cell.all (fun c => c == '-' || c == ':') && cell.contains '-' then
    match cell.head? == some ':', cell.getLast? == some ':' with
    | true, true => some .center
    | true, false => some .left
    | false, true => some .right
    | false, false => some .none
  else none

def splitAt (sep : Char) : List Char → List (List Char)
  | [] => [[]]
  | c :: rest =>
      if c = sep then [] :: splitAt sep rest
      else
        match splitAt sep rest with
        | [] => [[c]]
        | part :: parts => (c :: part) :: parts

/-- The alignments that the line under a table's head gives; empty if it is no such line. -/
def alignments (cs : List Char) : List CellAlignment :=
  let cells := splitAt '|' (if cs.head? = some '|' then cs.drop 1 else cs)
  let cells := if (cells.getLast?.getD []).all (· == ' ') then cells.dropLast else cells
  (cells.mapM cellAlignment?).getD []

/-- The number of bars that no backslash precedes, and the characters after the last of them. -/
def bars : List Char → Nat × Option (List Char)
  | [] => (0, none)
  | '\\' :: _ :: rest => bars rest
  | c :: rest =>
      let (count, after) := bars rest
      if c = '|' then (count + 1, some (after.getD rest)) else (count, after)

/-- The number of columns of a table's head; zero if there is no bar in it. -/
def headColumns (cs : List Char) : Nat :=
  match bars cs with
  | (_, none) => 0
  | (count, some after) =>
      let count := if (cs.dropWhile isLineBlank).head? = some '|' then count - 1 else count
      if isBlankRest after then count else count + 1

end UsageBoard.Markup.Marker
