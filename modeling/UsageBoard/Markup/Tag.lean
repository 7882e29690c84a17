import UsageBoard.Markup.Line

/-!
# Tags in markup

Tags, comments and addresses between angle brackets are recognised, so that what is inside them is
not read as markup.
-/

namespace UsageBoard.Markup.Tag

/-- The blanks between the parts of a tag; a tag may run over several lines. -/
def isTagBlank (c : Char) : Bool := c == '\n' || isLineBlank c

def isNameChar (c : Char) : Bool := c.isAlphanum || c == '-'

def isAttributeStart (c : Char) : Bool := c.isAlpha || c == '_' || c == ':'

def isAttributeChar (c : Char) : Bool := c.isAlphanum || c == '_' || c == ':' || c == '.' || c == '-'

def isUnquotedChar (c : Char) : Bool :=
  !(isTagBlank c || c == '"' || c == '\'' || c == '=' || c == '<' || c == '>' || c == '`')

def name? (cs : List Char) : Option (List Char × List Char) :=
  match cs with
  | c :: _ => if c.isAlpha then some (cs.takeWhile isNameChar, cs.dropWhile isNameChar) else none
  | [] => none

def afterValue? (cs : List Char) : Option (List Char) :=
  match cs with
  | [] => none
  | c :: rest =>
      if c = '"' ∨ c = '\'' then
        match rest.dropWhile (· != c) with
        | _ :: after => some after
        | [] => none
      else if isUnquotedChar c then some (cs.dropWhile isUnquotedChar)
      else none

/-- What follows the attributes of an opening tag and its end; each step reads an attribute. -/
def afterAttributes? : (steps : Nat) → List Char → Option (List Char)
  | 0, _ => none
  | steps + 1, cs =>
      match cs.dropWhile isTagBlank with
      | '>' :: rest => some rest
      | '/' :: '>' :: rest => some rest
      | c :: rest =>
          if isAttributeStart c ∧ cs.head?.any isTagBlank then
            let named := rest.dropWhile isAttributeChar
            match named.dropWhile isTagBlank with
            | '=' :: value => (afterValue? (value.dropWhile isTagBlank)).bind (afterAttributes? steps)
            | _ => afterAttributes? steps named
          else none
      | [] => none

/-- What follows an opening or a closing tag, given what follows the angle bracket; and the tag's
name. -/
def tag? (cs : List Char) : Option (List Char × List Char) :=
  match cs with
  | '/' :: rest => do
      let (name, after) ← name? rest
      match after.dropWhile isTagBlank with
      | '>' :: rest => some (name, rest)
      | _ => none
  | _ => do
      let (name, after) ← name? cs
      let rest ← afterAttributes? (after.length + 1) after
      return (name, rest)

def after? (mark : List Char) : List Char → Option (List Char)
  | [] => none
  | c :: rest =>
      if mark.isPrefixOf (c :: rest) then some ((c :: rest).drop mark.length) else after? mark rest

/-- What follows a comment, an instruction, a declaration or a character section, given what
follows the angle bracket. -/
def special? (cs : List Char) : Option (List Char) :=
  match cs with
  | '?' :: rest => after? ['?', '>'] rest
  | '!' :: '-' :: '-' :: rest =>
      match rest with
      | '>' :: after => some after
      | '-' :: '>' :: after => some after
      | _ => after? ['-', '-', '>'] rest
  | '!' :: rest =>
      if "[CDATA[".toList.isPrefixOf rest then after? [']', ']', '>'] (rest.drop 7)
      else if rest.head?.any Char.isAlpha then after? ['>'] rest
      else none
  | _ => none

/-- What follows anything between angle brackets that is kept as it stands. -/
def inline? (cs : List Char) : Option (List Char) :=
  match tag? cs with
  | some (_, rest) => some rest
  | none => special? cs

def before (cs rest : List Char) : List Char := cs.take (cs.length - rest.length)

/-- An absolute address between angle brackets, and what follows it. -/
def address? (cs : List Char) : Option (List Char × List Char) :=
  let isScheme (c : Char) : Bool := c.isAlphanum || c == '+' || c == '.' || c == '-'
  let scheme := cs.takeWhile isScheme
  if cs.head?.any Char.isAlpha ∧ 2 ≤ scheme.length ∧ scheme.length ≤ 32 then
    match cs.drop scheme.length with
    | ':' :: rest =>
        let path := rest.takeWhile fun c => !(decide (c.toNat ≤ 0x20) || c == '\x7f' || c == '<' || c == '>')
        match rest.drop path.length with
        | '>' :: after => some (scheme ++ ':' :: path, after)
        | _ => none
    | _ => none
  else none

/-- Whether a label may stand in the domain of a mail address. -/
def isDomainLabel (label : List Char) : Bool :=
  decide (label ≠ []) && decide (label.length ≤ 63) && label.all isNameChar &&
    label.head? != some '-' && label.getLast? != some '-'

def labels : List Char → List (List Char)
  | [] => [[]]
  | '.' :: rest => [] :: labels rest
  | c :: rest =>
      match labels rest with
      | [] => [[c]]
      | label :: more => (c :: label) :: more

/-- A mail address between angle brackets, and what follows it. -/
def mail? (cs : List Char) : Option (List Char × List Char) :=
  let isLocal (c : Char) : Bool := c.isAlphanum || ".!#$%&'*+/=?^_`\x7b|\x7d~-".toList.contains c
  let localPart := cs.takeWhile isLocal
  match cs.drop localPart.length with
  | '@' :: rest =>
      let domain := rest.takeWhile fun c => isNameChar c || c == '.'
      match rest.drop domain.length with
      | '>' :: after =>
          if localPart ≠ [] ∧ (labels domain).all isDomainLabel then
            some (localPart ++ '@' :: domain, after)
          else none
      | _ => none
  | _ => none

def blockNames : List String :=
  ["address", "article", "aside", "base", "basefont", "blockquote", "body", "caption", "center",
    "col", "colgroup", "dd", "details", "dialog", "dir", "div", "dl", "dt", "fieldset",
    "figcaption", "figure", "footer", "form", "frame", "frameset", "h1", "h2", "h3", "h4", "h5",
    "h6", "head", "header", "hr", "html", "iframe", "legend", "li", "link", "main", "menu",
    "menuitem", "nav", "noframes", "ol", "optgroup", "option", "p", "param", "search", "section",
    "summary", "table", "tbody", "td", "tfoot", "th", "thead", "title", "tr", "track", "ul"]

def rawNames : List String := ["pre", "style", "script", "textarea"]

inductive BlockEnd where
  /-- With the line that holds a text. -/
  | atMark (mark : List Char)
  /-- Before a blank line. -/
  | atBlank
deriving Repr, DecidableEq, BEq

def lowered (cs : List Char) : String := String.ofList (cs.map Char.toLower)

/-- The end of a block that runs up to a mark, given what follows the angle bracket. -/
def markedEnd? (cs : List Char) : Option (List Char) :=
  let raw := rawNames.find? fun name =>
    lowered (cs.take name.length) == name &&
      match cs.drop name.length with
      | [] => true
      | c :: _ => isTagBlank c || c == '>'
  match raw with
  | some name => some (("</" ++ name ++ ">").toList)
  | none =>
      if "!--".toList.isPrefixOf cs then some ['-', '-', '>']
      else if "?".toList.isPrefixOf cs then some ['?', '>']
      else if "![CDATA[".toList.isPrefixOf cs then some [']', ']', '>']
      else
        match cs with
        | '!' :: c :: _ => if c.isAlpha then some ['>'] else none
        | _ => none

/-- Whether a tag begins a block of its own, given what follows the angle bracket. -/
def beginsBlock (cs : List Char) : Bool :=
  let cs := if cs.head? = some '/' then cs.drop 1 else cs
  let name := cs.takeWhile Char.isAlphanum
  blockNames.contains (lowered name) &&
    match cs.drop name.length with
    | [] => true
    | '/' :: '>' :: _ => true
    | c :: _ => c == ' ' || c == '\t' || c == '>'

/-- Whether a line holds one whole tag and nothing else. -/
def standsAlone (cs : List Char) : Bool :=
  match tag? cs with
  | some (_, rest) => isBlankRest rest
  | none => false

/-- The end of a block of raw tags that may interrupt a paragraph. -/
def interruptingEnd? : List Char → Option BlockEnd
  | '<' :: cs =>
      match markedEnd? cs with
      | some mark => some (.atMark mark)
      | none => if beginsBlock cs then some .atBlank else none
  | _ => none

/-- The end of the block of raw tags that a line begins. -/
def blockEnd? : List Char → Option BlockEnd
  | '<' :: cs =>
      match interruptingEnd? ('<' :: cs) with
      | some found => some found
      | none => if standsAlone cs then some .atBlank else none
  | _ => none

end UsageBoard.Markup.Tag
