import UsageBoard.Markup.Link
import UsageBoard.Markup.Marker

/-!
# Blocks of markup

The blocks of a text, before the content of its paragraphs is read.
-/

namespace UsageBoard.Markup

open UsageBoard.Markup.Marker (CellAlignment)

/-- A block; paragraphs, headings and table cells hold their content as characters. -/
inductive Block where
  | paragraph (content : List Char)
  | heading (level : Nat) (content : List Char)
  | rule
  /-- Code, with the text after the opening fence if there is one. -/
  | code (info : Option (List Char)) (chars : List Char)
  /-- Raw tags, which are shown as text. -/
  | tags (chars : List Char)
  | quote (blocks : List Block)
  /-- A list of items, numbered from a number or with bullets. -/
  | list (first : Option Nat) (tight : Bool) (items : List Block)
  | item (blocks : List Block)
  | table (alignments : List CellAlignment) (head : List (List Char)) (rows : List (List (List Char)))
deriving Inhabited

/-- The blocks of a text, and the targets that it defines. -/
structure Outline where
  blocks : List Block
  definitions : Link.Definitions

end UsageBoard.Markup
