import UsageBoard.Markup.Emphasis
import UsageBoard.Markup.Link
import UsageBoard.Markup.Tag

/-!
# Reading the content of a paragraph

`Content.parse` reads text, code, breaks and links from left to right.  An opening bracket waits
for its closing bracket; what lies between becomes a link if a target follows or is defined.
-/

namespace UsageBoard.Markup.Content

open UsageBoard.Markup.Emphasis (Piece Run)

/-- An opening bracket, and the pieces after it, the last first. -/
structure Bracket where
  image : Bool
  /-- Whether it may still become a link. -/
  active : Bool
  /-- The text after the bracket. -/
  source : List Char
  pieces : List Piece

/-- The brackets that are open, the innermost first, above the pieces before the outermost; and the
character read last. -/
structure State where
  brackets : List Bracket
  outside : List Piece
  last : Option Char

namespace State

def start : State := ⟨[], [], none⟩

/-- Appends pieces, the last first, with the last character that they come from. -/
def append (state : State) (pieces : List Piece) (last : Char) : State :=
  match state.brackets with
  | [] => ⟨[], pieces ++ state.outside, some last⟩
  | bracket :: brackets =>
      ⟨⟨bracket.image, bracket.active, bracket.source, pieces ++ bracket.pieces⟩ :: brackets,
        state.outside, some last⟩

def part (state : State) (content : Inline) (last : Char) : State :=
  state.append [.part content] last

def text (state : State) (chars : List Char) (last : Char) : State :=
  state.part (.text chars) last

def bracketText (bracket : Bracket) : Piece :=
  .part (.text (if bracket.image then ['!', '['] else ['[']))

def flattenOne (state : State) : State :=
  match state.brackets with
  | [] => state
  | bracket :: brackets =>
      append ⟨brackets, state.outside, state.last⟩ (bracket.pieces ++ [bracketText bracket])
        (state.last.getD ' ')

/-- Turns the innermost brackets into text, as many as given. -/
def flatten : (count : Nat) → State → State
  | 0, state => state
  | count + 1, state => flatten count state.flattenOne

def deactivate (brackets : List Bracket) : List Bracket :=
  brackets.map fun bracket => if bracket.image then bracket else { bracket with active := false }

def linked (state : State) (target : Link.Target) : State :=
  match state.brackets with
  | [] => state
  | bracket :: brackets =>
      let parts := Emphasis.resolve bracket.pieces.reverse
      if bracket.image then
        part ⟨brackets, state.outside, state.last⟩ (.image target.destination target.title parts) ')'
      else
        part ⟨deactivate brackets, state.outside, state.last⟩
          (.link false target.destination target.title parts) ')'

def pieces (state : State) : List Piece := (state.flatten state.brackets.length).outside.reverse

end State

/-- The target of a bracket, given the text after its closing bracket, and what follows it. -/
def target? (definitions : Link.Definitions) (bracket : Bracket) (rest : List Char) :
    Option (Link.Target × List Char) :=
  let inside := bracket.source.take (bracket.source.length - rest.length - 1)
  let own : Option Link.Target :=
    match Link.label? (inside ++ [']']) with
    | some (label, []) => definitions.find? label
    | _ => none
  let shortcut := own.map (·, rest)
  match rest with
  | '(' :: after =>
      match Link.inline? after with
      | some found => some found
      | none => shortcut
  | '[' :: ']' :: after => own.map (·, after)
  | '[' :: after =>
      match Link.label? after with
      | some (label, after) => (definitions.find? label).map (·, after)
      | none => shortcut
  | _ => shortcut

def closeBracket (definitions : Link.Definitions) (state : State) (rest : List Char) :
    State × List Char :=
  match state.brackets with
  | [] => (state.text [']'] ']', rest)
  | bracket :: _ =>
      let plain := (state.flattenOne.text [']'] ']', rest)
      if bracket.active then
        match target? definitions bracket rest with
        | some (target, after) => (state.linked target, after)
        | none => plain
      else plain

/-- The characters up to the next run of exactly `count` backticks, and what follows it. -/
def upToTicks? (count : Nat) : (steps : Nat) → List Char → Option (List Char × List Char)
  | 0, _ => none
  | _, [] => none
  | steps + 1, c :: rest =>
      if c = '`' then
        let ticks := (c :: rest).takeWhile (· == '`')
        let after := (c :: rest).dropWhile (· == '`')
        if ticks.length = count then some ([], after)
        else (upToTicks? count steps after).map fun (found, rest) => (ticks ++ found, rest)
      else (upToTicks? count steps rest).map fun (found, rest) => (c :: found, rest)

/-- The content of a code span: line breaks become spaces, and one space at each end is dropped
unless there is nothing but spaces. -/
def codeChars (cs : List Char) : List Char :=
  let cs := cs.map fun c => if c = '\n' then ' ' else c
  if cs.head? = some ' ' ∧ cs.getLast? = some ' ' ∧ cs.all (· == ' ') = false then
    (cs.drop 1).dropLast
  else cs

/-- Characters without a meaning of their own. -/
def isPlain (c : Char) : Bool :=
  !(isLineBlank c || "\n\\`*_~[]!<&".toList.contains c)

/-- Reads what begins with an angle bracket, given what follows it. -/
def readAngle (state : State) (rest : List Char) : State × List Char :=
  match Tag.address? rest with
  | some (address, after) => (state.part (.link false address [] [.text address]) '>', after)
  | none =>
      match Tag.mail? rest with
      | some (address, after) => (state.part (.link true address [] [.text address]) '>', after)
      | none =>
          match Tag.inline? rest with
          | some after => (state.part (.tag ('<' :: Tag.before rest after)) '>', after)
          | none => (state.text ['<'] '<', rest)

/-- Reads blanks, and the line break that they may end in; two of them make it a hard break, and at
the end of the content they are dropped. -/
def readBlanks (state : State) (cs : List Char) : State × List Char :=
  let blanks := cs.takeWhile isLineBlank
  match cs.drop blanks.length with
  | [] => (state, [])
  | '\n' :: rest =>
      (state.part (if 2 ≤ blanks.length then .hardBreak else .softBreak) '\n', rest)
  | rest => (state.text blanks (blanks.getLastD ' '), rest)

def readOne (definitions : Link.Definitions) (state : State) : List Char → State × List Char
  | [] => (state, [])
  | '\\' :: '\n' :: rest => (state.part .hardBreak '\n', rest)
  | '\\' :: c :: rest =>
      if Text.isAsciiPunctuation c then (state.text [c] c, rest) else (state.text ['\\'] '\\', c :: rest)
  | '`' :: rest =>
      let ticks := '`' :: rest.takeWhile (· == '`')
      let after := rest.dropWhile (· == '`')
      match upToTicks? ticks.length after.length after with
      | some (found, after) => (state.part (.code (codeChars found)) '`', after)
      | none => (state.text ticks '`', after)
  | '&' :: rest =>
      match reference? rest with
      | some (found, after) => (state.text found ';', after)
      | none => (state.text ['&'] '&', rest)
  | '<' :: rest => readAngle state rest
  | '!' :: '[' :: rest => (⟨⟨true, true, rest, []⟩ :: state.brackets, state.outside, some '['⟩, rest)
  | '[' :: rest => (⟨⟨false, true, rest, []⟩ :: state.brackets, state.outside, some '['⟩, rest)
  | ']' :: rest => closeBracket definitions state rest
  | '\n' :: rest => (state.part .softBreak '\n', rest)
  | c :: rest =>
      if isLineBlank c then readBlanks state (c :: rest)
      else if c = '*' ∨ c = '_' ∨ c = '~' then
        let count := 1 + (rest.takeWhile (· == c)).length
        let after := rest.dropWhile (· == c)
        if c = '~' ∧ 2 < count then (state.text (List.replicate count c) c, after)
        else (state.append [.run (Run.at c count state.last after.head?)] c, after)
      else
        let more := rest.takeWhile isPlain
        (state.text (c :: more) ((c :: more).getLastD c), rest.drop more.length)

/-- Reads content in at most the given number of parts. -/
def readAll (definitions : Link.Definitions) : (steps : Nat) → State → List Char → State
  | 0, state, _ => state
  | _, state, [] => state
  | steps + 1, state, cs =>
      let (state, rest) := readOne definitions state cs
      readAll definitions steps state rest

def parse (definitions : Link.Definitions) (cs : List Char) : List Inline :=
  Emphasis.resolve (readAll definitions cs.length State.start cs).pieces

end UsageBoard.Markup.Content
