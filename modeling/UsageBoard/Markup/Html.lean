import UsageBoard.Decimal.Layout
import UsageBoard.Markup.Marker

/-!
# HTML

A page is a list of tokens.  Only the tokens of tags write angle brackets of their own, and all text
and all attribute values are escaped when they are written.
-/

namespace UsageBoard.Markup.Html

open UsageBoard.Markup.Marker (CellAlignment)

inductive Element where
  | paragraph
  | heading (level : Nat)
  | rule
  | preformatted
  | code
  | quote
  | bulletList
  | numberedList
  | listItem
  | table
  | tableHead
  | tableBody
  | tableRow
  | headCell
  | cell
  | lineBreak
  | emphasis
  | strong
  | deleted
  | link
  | image
deriving Repr, DecidableEq

def Element.name : Element → String
  | paragraph => "p"
  | heading level => "h" ++ toString level
  | rule => "hr"
  | preformatted => "pre"
  | code => "code"
  | quote => "blockquote"
  | bulletList => "ul"
  | numberedList => "ol"
  | listItem => "li"
  | table => "table"
  | tableHead => "thead"
  | tableBody => "tbody"
  | tableRow => "tr"
  | headCell => "th"
  | cell => "td"
  | lineBreak => "br"
  | emphasis => "em"
  | strong => "strong"
  | deleted => "del"
  | link => "a"
  | image => "img"

/-- The attributes of elements, with values that are not escaped yet. -/
inductive Attribute where
  /-- Where a link leads; to a mail address if that is set. -/
  | href (mail : Bool) (destination : List Char)
  | src (destination : List Char)
  | alt (chars : List Char)
  | title (chars : List Char)
  | language (name : List Char)
  | alignment (alignment : CellAlignment)
  | start (number : Nat)
deriving Repr, DecidableEq

inductive Token where
  | text (chars : List Char)
  /-- A line break, unless the page is at the start of a line. -/
  | fresh
  | newline
  | opening (element : Element) (attributes : List Attribute)
  | closing (element : Element)
  /-- An element without content. -/
  | single (element : Element) (attributes : List Attribute)
deriving Repr, DecidableEq

def escapeText (c : Char) : List Char :=
  if c = '&' then "&amp;".toList
  else if c = '<' then "&lt;".toList
  else if c = '>' then "&gt;".toList
  else [c]

def escapeValue (c : Char) : List Char :=
  if c = '"' then "&quot;".toList
  else if c = '\'' then "&#x27;".toList
  else escapeText c

/-- The characters that stand for themselves in a destination. -/
def standsInDestination (c : Char) : Bool :=
  c.isAlphanum || "-_.+!*(),%#@?=;:/$~".toList.contains c

def percentByte (byte : UInt8) : List Char :=
  let digit (n : Nat) : Char := (Nat.toDigits 16 n).headD '0' |>.toUpper
  ['%', digit (byte.toNat / 16), digit (byte.toNat % 16)]

def escapeDestination (c : Char) : List Char :=
  if c = '&' then "&amp;".toList
  else if c = '\'' then "&#x27;".toList
  else if standsInDestination c then [c]
  else (String.utf8EncodeChar c).flatMap percentByte

def alignmentName : CellAlignment → Option String
  | .none => none
  | .left => some "left"
  | .center => some "center"
  | .right => some "right"

def quotedAttribute (name : String) (value : List Char) : List Char :=
  ' ' :: name.toList ++ ['=', '"'] ++ value ++ ['"']

namespace Attribute

def name : Attribute → String
  | href _ _ => "href"
  | src _ => "src"
  | alt _ => "alt"
  | title _ => "title"
  | language _ => "class"
  | alignment _ => "style"
  | start _ => "start"

/-- The value as it is written; without one the attribute is left out. -/
def value? : Attribute → Option (List Char)
  | href mail destination =>
      some ((if mail then "mailto:".toList else []) ++ destination.flatMap escapeDestination)
  | src destination => some (destination.flatMap escapeDestination)
  | alt chars => some (chars.flatMap escapeValue)
  | title chars => some (chars.flatMap escapeValue)
  | language name => some ("language-".toList ++ name.flatMap escapeValue)
  | alignment which => (alignmentName which).map fun name => ("text-align: " ++ name).toList
  | start number => some (Decimal.naturalDigits number)

def chars (a : Attribute) : List Char :=
  match a.value? with
  | none => []
  | some value => quotedAttribute a.name value

end Attribute

namespace Token

/-- The text of a token, at the start of a line or not. -/
def chars (lineStart : Bool) : Token → List Char
  | text chars => chars.flatMap escapeText
  | fresh => if lineStart then [] else ['\n']
  | newline => ['\n']
  | opening element attributes =>
      '<' :: element.name.toList ++ attributes.flatMap Attribute.chars ++ ['>']
  | closing element => '<' :: '/' :: element.name.toList ++ ['>']
  | single element attributes =>
      '<' :: element.name.toList ++ attributes.flatMap Attribute.chars ++ " />".toList

/-- Whether the page is at the start of a line after a token. -/
def endsLine : Token → Bool
  | text chars => chars.getLast? == some '\n'
  | fresh => true
  | newline => true
  | _ => false

end Token

def writeFrom : (lineStart : Bool) → List Token → List Char
  | _, [] => []
  | lineStart, token :: tokens => token.chars lineStart ++ writeFrom token.endsLine tokens

def write (tokens : List Token) : List Char := writeFrom true tokens

end UsageBoard.Markup.Html
