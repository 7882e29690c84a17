import UsageBoard.Markup.Page

/-!
# Content of pages

A site may give its pages content of its own: markup, or an address to show as a whole page.
-/

namespace UsageBoard

inductive PageContent where
  /-- Nothing is configured: the built-in page. -/
  | builtIn
  /-- An address to show as a whole page. -/
  | embed (address : String)
  | html (text : String)
deriving DecidableEq, Repr

namespace PageContent

def embedStart : String := "https://"

/-- The form in which content is kept: an address as it is, and markup as HTML. -/
def resolve (raw : String) : String :=
  if Text.startsWith raw embedStart then raw else Markup.toHtml raw

/-- What a page shows for content in the form in which it is kept. -/
def ofResolved (resolved : String) : PageContent :=
  if resolved.toList.all Text.isBlank then .builtIn
  else if Text.startsWith resolved embedStart then .embed resolved
  else .html resolved

def ofRaw (raw : String) : PageContent := ofResolved (resolve raw)

def isBuiltIn (content : PageContent) : Bool := content == .builtIn

def refusedDestinations (raw : String) : List String :=
  if Text.startsWith raw embedStart then [] else Markup.refusedDestinations raw

end PageContent

end UsageBoard
