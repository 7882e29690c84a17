import UsageBoard.Markup.Block
import UsageBoard.Markup.Tag

/-!
# Reading the blocks of a text

`Outline.parse` reads lines into blocks.  Quotes and list items stay open as long as the following
lines belong to them; a paragraph also goes on over lines that have lost their quote or indentation.
-/

namespace UsageBoard.Markup

inductive Container where
  | quote
  | list (marker : Marker.ListMarker) (tight : Bool)
  /-- The columns by which the lines of the item are indented. -/
  | item (indent : Nat)
deriving Repr, DecidableEq

/-- An open container and its blocks, the last first. -/
structure Frame where
  container : Container
  blocks : List Block

namespace Frame

def toBlock (frame : Frame) : Block :=
  match frame.container with
  | .quote => .quote frame.blocks.reverse
  | .list marker tight =>
      .list (if marker.isBullet then none else some marker.number) tight frame.blocks.reverse
  | .item _ => .item frame.blocks.reverse

end Frame

structure OutlineState where
  /-- The open containers, the innermost first. -/
  frames : List Frame
  /-- The finished blocks outside of all containers, the last first. -/
  blocks : List Block
  /-- The last line was blank, inside a list or at the end of code. -/
  afterBlank : Bool
  /-- The last line began a list item and held nothing else. -/
  bareItem : Bool
  definitions : Link.Definitions

namespace OutlineState

def start : OutlineState := ⟨[], [], false, false, []⟩

def append (state : OutlineState) (block : Block) : OutlineState :=
  match state.frames with
  | [] => { state with blocks := block :: state.blocks }
  | frame :: frames => { state with frames := ⟨frame.container, block :: frame.blocks⟩ :: frames }

def openContainer (state : OutlineState) (container : Container) : OutlineState :=
  { state with frames := ⟨container, []⟩ :: state.frames }

def close (state : OutlineState) : OutlineState :=
  match state.frames with
  | [] => state
  | frame :: frames => append { state with frames } frame.toBlock

def closeMany : (count : Nat) → OutlineState → OutlineState
  | 0, state => state
  | count + 1, state => closeMany count state.close

/-- The list around the innermost container is no longer tight. -/
def loosenAround (state : OutlineState) : OutlineState :=
  match state.frames with
  | inner :: ⟨.list marker _, blocks⟩ :: frames =>
      { state with frames := inner :: ⟨.list marker false, blocks⟩ :: frames }
  | _ => state

/-- Ends the list whose items are all closed, before a block that is no item; a blank line before
the block makes the list around it loose. -/
def finishList (state : OutlineState) : OutlineState :=
  let state :=
    match state.frames with
    | ⟨.list _ _, _⟩ :: _ => state.close
    | _ => state
  if state.afterBlank then { state.loosenAround with afterBlank := false } else state

/-- Goes on with the list of a marker's sign, or begins one. -/
def continueList (state : OutlineState) (marker : Marker.ListMarker) : OutlineState :=
  match state.frames with
  | ⟨.list current tight, blocks⟩ :: frames =>
      if current.sign = marker.sign then
        { state with frames := ⟨.list current (tight && !state.afterBlank), blocks⟩ :: frames, afterBlank := false }
      else { state.finishList.openContainer (.list marker true) with afterBlank := false }
  | [] => { state.openContainer (.list marker true) with afterBlank := false }
  | _ => { state.finishList.openContainer (.list marker true) with afterBlank := false }

end OutlineState

/-- Matches the open containers, the outermost first, with the start of a line: how many go on, and
where their part of the line ends. -/
def matchContainers : List Container → Cursor → Nat × Cursor
  | [], cursor => (0, cursor)
  | container :: inner, cursor =>
      let onward (cursor : Cursor) :=
        let (count, after) := matchContainers inner cursor
        (count + 1, after)
      match container with
      | .list _ _ => onward cursor
      | .quote =>
          let (_, after) := cursor.skip 3
          match after.rest with
          | '>' :: _ =>
              let (_, after) := (after.advance 1).skip 1
              onward after
          | _ => (0, cursor)
      | .item indent =>
          let (missing, after) := cursor.skip indent
          if missing = 0 ∨ after.rest.isEmpty then onward after else (0, cursor)

namespace OutlineState

/-- The open containers, the outermost first. -/
def containers (state : OutlineState) : List Container := (state.frames.map Frame.container).reverse

end OutlineState

def insideAll? (containers : List Container) (line : Line) : Option Cursor :=
  let (count, cursor) := matchContainers containers (Cursor.start line)
  if count = containers.length then some cursor else none

/-! ## Tables -/

/-- The alignments of a table whose head is given and whose next line is as it stands. -/
def tableAlignments? (containers : List Container) (head : List Char) (next : List Line) :
    Option (List Marker.CellAlignment) :=
  match next with
  | [] => none
  | line :: _ =>
      match insideAll? containers line with
      | none => none
      | some cursor =>
          let (indent, after) := cursor.skipUpTo 4
          let found := Marker.alignments after.rest
          if indent < 4 ∧ found ≠ [] ∧ found.length = Marker.headColumns head then some found else none

/-- Removes the backslashes from bars, and splits at the other bars. -/
def splitCells : List Char → List (List Char)
  | [] => [[]]
  | '\\' :: '|' :: rest =>
      match splitCells rest with
      | [] => [['|']]
      | cell :: cells => ('|' :: cell) :: cells
  | '\\' :: c :: rest =>
      match splitCells rest with
      | [] => [['\\', c]]
      | cell :: cells => ('\\' :: c :: cell) :: cells
  | c :: rest =>
      if c = '|' then [] :: splitCells rest
      else
        match splitCells rest with
        | [] => [[c]]
        | cell :: cells => (c :: cell) :: cells

def tableCells (columns : Nat) (row : List Char) : List (List Char) :=
  let row := row.dropWhile isLineBlank
  let cells := splitCells (if row.head? = some '|' then row.drop 1 else row)
  let cells := if isBlankRest (cells.getLastD []) then cells.dropLast else cells
  let cells := cells.map fun cell => cell.dropWhile isLineBlank
  cells.take columns ++ List.replicate (columns - cells.length) []

/-! ## Paragraphs -/

/-- Whether a line ends a paragraph, given its rest after less than four columns of indentation and
whether it is inside all containers of the paragraph. -/
def interrupts (inside : Bool) (cs : List Char) : Bool :=
  isBlankRest cs || Marker.isRule cs || (Marker.headingLevel? cs).isSome || (Marker.fence? cs).isSome ||
    cs.head? == some '>' || (Tag.interruptingEnd? cs).isSome ||
    match Marker.ListMarker.ofRest? cs with
    | none => false
    | some marker =>
        !inside || ((marker.isBullet || marker.number == 1) && !isBlankRest (cs.drop marker.width))

inductive Continuation where
  | ends
  | underline (level : Nat)
  | text (content : List Char)

/-- What a line is to the paragraph before it, given the lines after it. -/
def continuation (containers : List Container) (line : Line) (next : List Line) : Continuation :=
  let (count, cursor) := matchContainers containers (Cursor.start line)
  let inside := count == containers.length
  let (indent, after) := cursor.skipUpTo 4
  let rest := after.rest
  if 4 ≤ indent then
    if cursor.afterBlanks.isEmpty then .ends else .text cursor.afterBlanks
  else
    match (if inside then Marker.underlineLevel? rest else none) with
    | some level => .underline level
    | none =>
        let table := rest.head? == some '|' && (tableAlignments? containers rest next).isSome
        if interrupts inside rest || table then .ends else .text cursor.afterBlanks

/-- The further lines of a paragraph, the level of the underline that follows them, and the lines
after it. -/
def paragraphLines (containers : List Container) :
    List Line → List (List Char) × Option Nat × List Line
  | [] => ([], none, [])
  | line :: next =>
      match continuation containers line next with
      | .ends => ([], none, line :: next)
      | .underline level => ([], some level, next)
      | .text content =>
          let (contents, level, rest) := paragraphLines containers next
          (content :: contents, level, rest)

def tableRows (containers : List Container) (columns : Nat) :
    List Line → List (List (List Char)) × List Line
  | [] => ([], [])
  | line :: next =>
      match insideAll? containers line with
      | none => ([], line :: next)
      | some cursor =>
          let content := cursor.afterBlanks
          if interrupts true content then ([], line :: next)
          else
            let (rows, rest) := tableRows containers columns next
            (tableCells columns content :: rows, rest)

/-! ## Code and raw tags -/

def isBlankCode (line : List Char) : Bool := line.all fun c => isLineBlank c || c == '\n'

/-- Drops the last lines of indented code if they are blank. -/
def dropBlankLines (lines : List (List Char)) : List (List Char) :=
  (lines.reverse.dropWhile isBlankCode).reverse

/-- The further lines of indented code, and the lines after them. -/
def indentedLines (containers : List Container) : List Line → List (List Char) × List Line
  | [] => ([], [])
  | line :: next =>
      match insideAll? containers line with
      | none => ([], line :: next)
      | some cursor =>
          let (missing, after) := cursor.skip 4
          if missing = 0 ∨ after.rest.isEmpty then
            let (found, rest) := indentedLines containers next
            ((after.remaining ++ line.breakChars) :: found, rest)
          else ([], line :: next)

/-- The lines of fenced code, and the lines after its closing fence. -/
def fencedLines (containers : List Container) (indent : Nat) (sign : Char) (count : Nat) :
    List Line → List (List Char) × List Line
  | [] => ([], [])
  | line :: next =>
      match insideAll? containers line with
      | none => ([], line :: next)
      | some cursor =>
          let (_, cursor) := cursor.skip indent
          let (missing, after) := cursor.skip (4 - indent)
          if missing ≠ 0 ∧ Marker.closesFence sign count after.rest then ([], next)
          else
            let (found, rest) := fencedLines containers indent sign count next
            ((cursor.remaining ++ line.breakChars) :: found, rest)

/-- The further lines of raw tags, and the lines after them. -/
def tagLines (containers : List Container) (blockEnd : Tag.BlockEnd) :
    (last : List Char) → List Line → List (List Char) × List Line
  | _, [] => ([], [])
  | last, line :: next =>
      let ended : Bool :=
        match blockEnd with
        | .atMark mark => (Tag.after? mark last).isSome
        | .atBlank => false
      match insideAll? containers line with
      | none => ([], line :: next)
      | some cursor =>
          if ended || (blockEnd == .atBlank && isBlankRest cursor.rest) then ([], line :: next)
          else
            let (found, rest) := tagLines containers blockEnd cursor.rest next
            ((cursor.remaining ++ line.breakChars) :: found, rest)

/-! ## Blocks -/

/-- The content of a heading without the number signs that close it. -/
def headingContent (cs : List Char) : List Char :=
  let cs := cs.dropWhile isLineBlank
  let trimmed := (cs.reverse.dropWhile (· == ' ')).reverse
  let opened := (trimmed.reverse.dropWhile (· == '#')).reverse
  if opened.isEmpty then []
  else if opened.getLast? = some ' ' then (opened.reverse.dropWhile (· == ' ')).reverse
  else trimmed

/-- The lines of content, with the breaks between them. -/
def joinLines : List (List Char) → List Char
  | [] => []
  | [line] => line
  | line :: lines => line ++ '\n' :: joinLines lines

namespace OutlineState

/-- Opens the containers that a line begins, in at most the given number of steps; nothing more is
to be read if the line holds no more than the marker of an item. -/
def openContainers : (steps : Nat) → OutlineState → Cursor → OutlineState × Option Cursor
  | 0, state, cursor => (state, some cursor)
  | steps + 1, state, cursor =>
      let (indent, after) := cursor.skipUpTo 4
      if 4 ≤ indent then (state, some cursor)
      else
        match Marker.ListMarker.ofRest? after.rest, after.rest with
        | some marker, _ =>
            let (_, afterMarker) := (after.advance marker.width).skip 1
            let state := state.continueList marker
            let width := indent + marker.width + 1
            if isBlankRest afterMarker.rest then
              ({ state.openContainer (.item width) with bareItem := true }, none)
            else
              let (more, afterMore) := afterMarker.skipUpTo 4
              if more < 4 then openContainers steps (state.openContainer (.item (width + more))) afterMore
              else openContainers steps (state.openContainer (.item width)) afterMarker
        | none, '>' :: _ =>
            let (_, afterMarker) := (after.advance 1).skip 1
            openContainers steps (state.finishList.openContainer .quote) afterMarker
        | none, _ => (state, some cursor)

def blankLine (state : OutlineState) (bare : Bool) : OutlineState :=
  match state.frames with
  | [] => state
  | ⟨.quote, _⟩ :: _ => state
  | ⟨.item _, _⟩ :: _ => { (if bare then state.close else state) with afterBlank := true }
  | _ => { state with afterBlank := true }

/-- Reads a paragraph, or what a paragraph turns out to be: a heading, a table or definitions. -/
def readParagraph (state : OutlineState) (first : List Char) (next : List Line) :
    OutlineState × List Line :=
  let containers := state.containers
  match tableAlignments? containers first next with
  | some alignments =>
      let (rows, rest) := tableRows containers alignments.length (next.drop 1)
      (state.append (.table alignments (tableCells alignments.length first) rows), rest)
  | none =>
      let (more, level, rest) := paragraphLines containers next
      let content := joinLines (first :: more)
      match Link.definition? content with
      | some (label, target, after) =>
          let used := (first :: more).length - (if after.isEmpty then 0 else after.count '\n' + 1)
          ({ state with definitions := state.definitions.add label target }, next.drop (used - 1))
      | none =>
          match level with
          | some level => (state.append (.heading level content), rest)
          | none => (state.append (.paragraph content), rest)

/-- Reads the block that begins at a position of a line. -/
def readBlock (state : OutlineState) (line : Line) (cursor : Cursor) (next : List Line) :
    OutlineState × List Line :=
  let (indent, after) := cursor.skipUpTo 4
  let state := state.finishList
  let containers := state.containers
  let rest := after.rest
  if 4 ≤ indent then
    let (more, rest) := indentedLines containers next
    let lines := dropBlankLines ((after.remaining ++ line.breakChars) :: more)
    ({ state.append (.code none lines.flatten) with afterBlank := more.getLast?.any isBlankCode }, rest)
  else
    match Tag.blockEnd? rest with
    | some blockEnd =>
        let (more, next) := tagLines containers blockEnd rest next
        (state.append (.tags ((cursor.remaining ++ line.breakChars) ++ more.flatten)), next)
    | none =>
        if Marker.isRule rest then (state.append .rule, next)
        else
          match Marker.headingLevel? rest, Marker.fence? rest with
          | some level, _ => (state.append (.heading level (headingContent (rest.drop level))), next)
          | none, some (sign, count) =>
              let info := (rest.drop count).dropWhile isLineBlank
              let info := (info.reverse.dropWhile isLineBlank).reverse
              let (lines, next) := fencedLines containers indent sign count next
              (state.append (.code (some (plain info)) lines.flatten), next)
          | none, none => readParagraph state rest next

/-- Reads the blocks that begin with a line, and the lines after them. -/
def readLine (state : OutlineState) (line : Line) (next : List Line) : OutlineState × List Line :=
  let (count, cursor) := matchContainers state.containers (Cursor.start line)
  let bare := state.bareItem
  let state := closeMany (state.frames.length - count) { state with bareItem := false }
  match openContainers (line.chars.length + 1) state cursor with
  | (state, none) => (state, next)
  | (state, some cursor) =>
      if isBlankRest cursor.rest then (state.blankLine bare, next)
      else state.readBlock line cursor next

def readLines : (steps : Nat) → OutlineState → List Line → OutlineState
  | 0, state, _ => state
  | _, state, [] => state
  | steps + 1, state, line :: next =>
      let (state, rest) := state.readLine line next
      readLines steps state rest

end OutlineState

namespace Outline

def parse (cs : List Char) : Outline :=
  let lines := Line.split cs
  let state := OutlineState.readLines lines.length .start lines
  let closed := OutlineState.closeMany state.frames.length state
  ⟨closed.blocks.reverse, closed.definitions⟩

end Outline

end UsageBoard.Markup
