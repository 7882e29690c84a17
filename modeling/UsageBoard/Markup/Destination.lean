import UsageBoard.Text.Blank

/-!
# Where links may lead

A destination with a scheme other than those allowed is replaced.  Blanks and control characters
are ignored when the scheme is read, because a viewer ignores them too.
-/

namespace UsageBoard.Markup.Destination

def allowedSchemes : List String := ["http", "https", "mailto"]

def cleaned (destination : List Char) : List Char :=
  destination.filter fun c => !Text.isBlank c && !Text.isControl c

/-- The characters of which the first tells whether there is a scheme. -/
def endsScheme (c : Char) : Bool := c == ':' || c == '/' || c == '?' || c == '#'

def scheme? (destination : List Char) : Option String :=
  let cs := cleaned destination
  match cs.dropWhile fun c => !endsScheme c with
  | ':' :: _ => some (Text.lower (String.ofList (cs.takeWhile fun c => !endsScheme c)))
  | _ => none

def isAllowed (destination : List Char) : Bool :=
  match scheme? destination with
  | some scheme => allowedSchemes.contains scheme
  | none => true

/-- The destination if it is allowed, and the top of the page otherwise. -/
def safe (destination : List Char) : List Char :=
  if isAllowed destination then destination else ['#']

end UsageBoard.Markup.Destination
