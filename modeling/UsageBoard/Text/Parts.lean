/-!
# Parts of a text

A text is split at each occurrence of a character, and at the ends of its lines.
-/

namespace UsageBoard.Text

/-- The parts of a text between separators; there is one more than there are separators. -/
def parts (separator : Char) : List Char → List (List Char)
  | [] => [[]]
  | c :: rest =>
      if c = separator then [] :: parts separator rest
      else
        match parts separator rest with
        | part :: others => (c :: part) :: others
        | [] => [[c]]

def join (separator : Char) (ps : List (List Char)) : List Char := [separator].intercalate ps

def withoutReturn (line : List Char) : List Char :=
  if line.getLast? = some '\r' then line.dropLast else line

/-- The lines of a text; what follows the last line feed is the last of them, and a carriage return
counts as the end of a line together with a line feed only. -/
def lines (cs : List Char) : List (List Char) :=
  let all := parts '\n' cs
  all.dropLast.map withoutReturn ++ all.drop (all.length - 1)

end UsageBoard.Text
