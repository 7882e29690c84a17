/-!
# The content of a paragraph
-/

namespace UsageBoard.Markup

inductive Inline where
  | text (chars : List Char)
  | code (chars : List Char)
  /-- A raw tag, which is shown as text. -/
  | tag (chars : List Char)
  | softBreak
  | hardBreak
  | emphasis (parts : List Inline)
  | strong (parts : List Inline)
  | struck (parts : List Inline)
  /-- A link; to a mail address if it was written as one. -/
  | link (mail : Bool) (destination title : List Char) (parts : List Inline)
  | image (destination title : List Char) (parts : List Inline)
deriving Inhabited

end UsageBoard.Markup
