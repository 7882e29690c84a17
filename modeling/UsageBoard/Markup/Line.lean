/-!
# Lines of markup

A text is read line by line.  A cursor walks over the start of a line and counts columns, because
a tab reaches to the next column that is a multiple of four and may be used up in parts.
-/

namespace UsageBoard.Markup

/-- A line: its characters, and whether a line break ends it. -/
structure Line where
  chars : List Char
  ended : Bool
deriving Repr, DecidableEq

namespace Line

def consTo (c : Char) : List Line → List Line
  | [] => [⟨[c], false⟩]
  | line :: lines => ⟨c :: line.chars, line.ended⟩ :: lines

/-- The lines of a text; a line feed, a carriage return or both together end a line. -/
def split : List Char → List Line
  | [] => []
  | '\r' :: '\n' :: rest => ⟨[], true⟩ :: split rest
  | c :: rest => if c = '\n' ∨ c = '\r' then ⟨[], true⟩ :: split rest else consTo c (split rest)

def breakChars (line : Line) : List Char := if line.ended then ['\n'] else []

end Line

def isLineBlank (c : Char) : Bool := c == ' ' || c == '\t' || c == '\x0b' || c == '\x0c'

def isBlankRest (cs : List Char) : Bool := cs.all isLineBlank

structure Cursor where
  rest : List Char
  column : Nat
  /-- The columns of a tab that are not used up. -/
  spare : Nat
deriving Repr, DecidableEq

namespace Cursor

def start (line : Line) : Cursor := ⟨line.chars, 0, 0⟩

/-- Skips spaces and tabs up to a number of columns; the number of columns that were not there. -/
def skipFrom : List Char → (column wanted : Nat) → Nat × Cursor
  | ' ' :: rest, column, wanted + 1 => skipFrom rest (column + 1) wanted
  | '\t' :: rest, column, wanted + 1 =>
      let width := 4 - column % 4
      if width ≤ wanted + 1 then skipFrom rest (column + width) (wanted + 1 - width)
      else (0, ⟨rest, column + width, width - (wanted + 1)⟩)
  | rest, column, wanted => (wanted, ⟨rest, column, 0⟩)

def skip (cursor : Cursor) (wanted : Nat) : Nat × Cursor :=
  if wanted ≤ cursor.spare then (0, ⟨cursor.rest, cursor.column, cursor.spare - wanted⟩)
  else skipFrom cursor.rest cursor.column (wanted - cursor.spare)

def skipUpTo (cursor : Cursor) (wanted : Nat) : Nat × Cursor :=
  let (missing, after) := cursor.skip wanted
  (wanted - missing, after)

def advance (cursor : Cursor) (count : Nat) : Cursor :=
  ⟨cursor.rest.drop count, cursor.column + count, 0⟩

def afterBlanks (cursor : Cursor) : List Char :=
  cursor.rest.dropWhile fun c => c == ' ' || c == '\t'

def remaining (cursor : Cursor) : List Char := List.replicate cursor.spare ' ' ++ cursor.rest

end Cursor

end UsageBoard.Markup
