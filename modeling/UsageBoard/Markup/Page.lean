import UsageBoard.Markup.Content
import UsageBoard.Markup.Destination
import UsageBoard.Markup.Html
import UsageBoard.Markup.Outline

/-!
# Markup as a page

`Markup.toHtml` renders markup as HTML.  Tags in the markup are shown as text, and links lead only
where they may.
-/

namespace UsageBoard.Markup

open UsageBoard.Markup.Html (Token Element Attribute)
open UsageBoard.Markup.Marker (CellAlignment)

namespace Inline

mutual

/-- The text of a part of the content that describes an image. -/
def altChars : Inline → List Char
  | .text chars => chars
  | .code chars => chars
  | .tag chars => chars
  | .softBreak => [' ']
  | .hardBreak => [' ']
  | .emphasis parts => allAltChars parts
  | .strong parts => allAltChars parts
  | .struck parts => allAltChars parts
  | .link _ _ _ parts => allAltChars parts
  | .image _ _ parts => allAltChars parts

def allAltChars : List Inline → List Char
  | [] => []
  | part :: parts => altChars part ++ allAltChars parts

end

/-- A title attribute, unless the title is empty. -/
def titleAttribute (title : List Char) : List Attribute :=
  if title.isEmpty then [] else [.title title]

mutual

def tokens : Inline → List Token
  | .text chars => [.text chars]
  | .code chars => [.opening .code [], .text chars, .closing .code]
  | .tag chars => [.text chars]
  | .softBreak => [.newline]
  | .hardBreak => [.single .lineBreak [], .newline]
  | .emphasis parts => .opening .emphasis [] :: allTokens parts ++ [.closing .emphasis]
  | .strong parts => .opening .strong [] :: allTokens parts ++ [.closing .strong]
  | .struck parts => .opening .deleted [] :: allTokens parts ++ [.closing .deleted]
  | .link mail destination title parts =>
      .opening .link (.href mail (Destination.safe destination) :: titleAttribute title) ::
        allTokens parts ++ [.closing .link]
  | .image destination title parts =>
      [.single .image
        (.src (Destination.safe destination) :: .alt (allAltChars parts) :: titleAttribute title)]

def allTokens : List Inline → List Token
  | [] => []
  | part :: parts => tokens part ++ allTokens parts

end

mutual

/-- The destinations in a part of the content, each with whether it is a mail address. -/
def targets : Inline → List (Bool × List Char)
  | .emphasis parts => allTargets parts
  | .strong parts => allTargets parts
  | .struck parts => allTargets parts
  | .link mail destination _ parts => (mail, destination) :: allTargets parts
  | .image destination _ parts => (false, destination) :: allTargets parts
  | _ => []

def allTargets : List Inline → List (Bool × List Char)
  | [] => []
  | part :: parts => targets part ++ allTargets parts

end

end Inline

namespace Block

def contentTokens (definitions : Link.Definitions) (content : List Char) : List Token :=
  Inline.allTokens (Content.parse definitions content)

/-- The cells of a row, with the alignments of their columns. -/
def rowTokens (definitions : Link.Definitions) (element : Element) (alignments : List CellAlignment)
    (cells : List (List Char)) : List Token :=
  (cells.zip alignments).flatMap fun (content, alignment) =>
    .opening element [.alignment alignment] :: contentTokens definitions content ++ [.closing element]

/-- The language of a code block: the first word after its fence. -/
def languageAttribute (info : Option (List Char)) : List Attribute :=
  match (info.getD []).takeWhile (· != ' ') with
  | [] => []
  | name => [.language name]

def listOpening (first : Option Nat) : Token :=
  match first with
  | none => .opening .bulletList []
  | some 1 => .opening .numberedList []
  | some number => .opening .numberedList [.start number]

def listElement (first : Option Nat) : Element :=
  if first.isSome then .numberedList else .bulletList

mutual

/-- The tokens of a block; in a tight list paragraphs have no element of their own. -/
def tokens (definitions : Link.Definitions) (tight : Bool) : Block → List Token
  | .paragraph content =>
      if tight then contentTokens definitions content
      else
        [.fresh, .opening .paragraph []] ++ contentTokens definitions content ++
          [.closing .paragraph, .newline]
  | .heading level content =>
      [.fresh, .opening (.heading level) []] ++ contentTokens definitions content ++
        [.closing (.heading level), .newline]
  | .rule => [.fresh, .single .rule [], .newline]
  | .code info chars =>
      [.fresh, .opening .preformatted [], .opening .code (languageAttribute info)] ++
        (if chars.isEmpty then [] else [.text chars]) ++
        [.closing .code, .closing .preformatted, .newline]
  | .tags chars => [.text chars]
  | .quote blocks =>
      [.fresh, .opening .quote [], .newline] ++ allTokens definitions false blocks ++
        [.closing .quote, .newline]
  | .list first tight items =>
      [.fresh, listOpening first, .newline] ++ allTokens definitions tight items ++
        [.closing (listElement first), .newline]
  | .item blocks =>
      [.fresh, .opening .listItem []] ++ allTokens definitions tight blocks ++
        [.closing .listItem, .newline]
  | .table alignments head rows =>
      [.opening .table [], .opening .tableHead [], .opening .tableRow []] ++
        rowTokens definitions .headCell alignments head ++
        [.closing .tableRow, .closing .tableHead, .opening .tableBody [], .newline] ++
        rows.flatMap (fun row =>
          .opening .tableRow [] :: rowTokens definitions .cell alignments row ++
            [.closing .tableRow, .newline]) ++
        [.closing .tableBody, .closing .table, .newline]

def allTokens (definitions : Link.Definitions) (tight : Bool) : List Block → List Token
  | [] => []
  | block :: blocks => tokens definitions tight block ++ allTokens definitions tight blocks

end

mutual

def contents : Block → List (List Char)
  | .paragraph content => [content]
  | .heading _ content => [content]
  | .quote blocks => allContents blocks
  | .list _ _ items => allContents items
  | .item blocks => allContents blocks
  | .table _ head rows => head ++ rows.flatten
  | _ => []

def allContents : List Block → List (List Char)
  | [] => []
  | block :: blocks => contents block ++ allContents blocks

end

end Block

namespace Outline

def tokens (outline : Outline) : List Token := Block.allTokens outline.definitions false outline.blocks

/-- The destinations of all links and images of a page, each with whether it is a mail address. -/
def targets (outline : Outline) : List (Bool × List Char) :=
  (Block.allContents outline.blocks).flatMap fun content =>
    Inline.allTargets (Content.parse outline.definitions content)

end Outline

def toHtml (source : String) : String :=
  String.ofList (Html.write (Outline.parse source.toList).tokens)

/-- The destinations in markup to which no link may lead. -/
def refusedDestinations (source : String) : List String :=
  (((Outline.parse source.toList).targets.map Prod.snd).filter fun destination =>
    !Destination.isAllowed destination).map String.ofList

end UsageBoard.Markup
