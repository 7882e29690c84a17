import UsageBoard.Markup.CharacterReference
import UsageBoard.Markup.Line
import UsageBoard.Text.Blank

/-!
# Links in markup

The parts of a link are its label, its destination and its title.  A definition gives a label a
destination for the whole text.
-/

namespace UsageBoard.Markup.Link

structure Target where
  destination : List Char
  title : List Char
deriving Repr, DecidableEq

/-- The blanks between the parts of a link, a line break among them. -/
def isGap (c : Char) : Bool := c == '\n' || isLineBlank c

def skipGap (cs : List Char) : List Char := cs.dropWhile isGap

/-- Characters up to a mark that no backslash precedes, and what follows the mark; none of the
refused characters may come before it. -/
def upTo? (mark : Char) (refused : List Char) : List Char → Option (List Char × List Char)
  | [] => none
  | '\\' :: c :: rest =>
      if Text.isAsciiPunctuation c then
        (upTo? mark refused rest).map fun (found, after) => ('\\' :: c :: found, after)
      else (upTo? mark refused (c :: rest)).map fun (found, after) => ('\\' :: found, after)
  | c :: rest =>
      if c = mark then some ([], rest)
      else if refused.contains c then none
      else (upTo? mark refused rest).map fun (found, after) => (c :: found, after)

/-- The end of a destination, if its parentheses are closed. -/
def bareEnd (depth : Nat) (rest : List Char) : Option (List Char × List Char) :=
  if depth = 0 then some ([], rest) else none

/-- A destination without angle brackets, in which parentheses are balanced, and what follows it;
`depth` of them are open. -/
def bare? : (depth : Nat) → List Char → Option (List Char × List Char)
  | depth, [] => bareEnd depth []
  | depth, '\\' :: c :: rest =>
      if Text.isAsciiPunctuation c then
        (bare? depth rest).map fun (found, after) => ('\\' :: c :: found, after)
      else (bare? depth (c :: rest)).map fun (found, after) => ('\\' :: found, after)
  | depth, c :: rest =>
      let onward (depth : Nat) := (bare? depth rest).map fun (found, after) => (c :: found, after)
      if c.toNat ≤ 0x20 ∨ c = '\x7f' then bareEnd depth (c :: rest)
      else if c = '(' then onward (depth + 1)
      else if c = ')' then if depth = 0 then some ([], c :: rest) else onward (depth - 1)
      else onward depth

def destination? : List Char → Option (List Char × List Char)
  | '<' :: rest => upTo? '>' ['<', '\n'] rest
  | cs => bare? 0 cs

def title? : List Char → Option (List Char × List Char)
  | '"' :: rest => upTo? '"' [] rest
  | '\'' :: rest => upTo? '\'' [] rest
  | '(' :: rest => upTo? ')' ['('] rest
  | _ => none

/-- The target in parentheses after a link's text, given what follows the opening parenthesis. -/
def inline? (cs : List Char) : Option (Target × List Char) := do
  let (destination, rest) ← destination? (skipGap cs)
  match skipGap rest with
  | ')' :: after => return (⟨plain destination, []⟩, after)
  | gap =>
      if gap.length < rest.length then
        let (title, rest) ← title? gap
        match skipGap rest with
        | ')' :: after => return (⟨plain destination, plain title⟩, after)
        | _ => none
      else none

def labelLimit : Nat := 999

/-- A label given what follows its opening bracket, and what follows its closing bracket. -/
def label? (cs : List Char) : Option (List Char × List Char) :=
  match upTo? ']' ['['] cs with
  | some (label, rest) => if label.length ≤ labelLimit then some (label, rest) else none
  | none => none

/-- Runs of blanks become one space; there is none at the ends. -/
def collapse (cs : List Char) : List Char :=
  (cs.foldr (fun c (after : List Char) =>
    if Text.isBlank c then (if after.head? = some ' ' then after else ' ' :: after) else c :: after)
    []) |> Text.trimBy Text.isBlank

/-- The pairs of capital and small letters, as ranges of capitals and the distance of the small
ones. -/
def capitalRanges : List (Nat × Nat × Nat) :=
  [(0x41, 0x5A, 32), (0xC0, 0xD6, 32), (0xD8, 0xDE, 32), (0x391, 0x3A1, 32), (0x3A3, 0x3AB, 32),
    (0x400, 0x40F, 80), (0x410, 0x42F, 32), (0x531, 0x556, 48), (0xFF21, 0xFF3A, 32)]

/-- The ranges in which capitals alternate with their small letters, the capital first at an even
distance from the start. -/
def alternatingRanges : List (Nat × Nat) :=
  [(0x100, 0x12F), (0x132, 0x137), (0x14A, 0x177), (0x460, 0x481), (0x48A, 0x4BF), (0x4D0, 0x52F),
    (0x1E00, 0x1E95), (0x1EA0, 0x1EFF)]

/-- The ranges in which capitals alternate with their small letters, beginning with an odd code
point. -/
def oddAlternatingRanges : List (Nat × Nat) := [(0x139, 0x148), (0x179, 0x17E), (0x4C1, 0x4CE)]

/-- A letter without the difference between capital and small. -/
def foldCase (c : Char) : List Char :=
  let n := c.toNat
  let within (range : Nat × Nat) : Bool := decide (range.1 ≤ n) && decide (n ≤ range.2)
  match capitalRanges.find? fun (low, high, _) => within (low, high) with
  | some (_, _, distance) => [Char.ofNat (n + distance)]
  | none =>
      if c = 'ß' ∨ c = 'ẞ' then ['s', 's']
      else if c = 'ς' then ['σ']
      else if alternatingRanges.any within ∧ n % 2 = 0 then [Char.ofNat (n + 1)]
      else if oddAlternatingRanges.any within ∧ n % 2 = 1 then [Char.ofNat (n + 1)]
      else [c]

def key (label : List Char) : List Char := (collapse label).flatMap foldCase

/-- The targets of labels; the first definition of a label counts. -/
abbrev Definitions := List (List Char × Target)

def Definitions.find? (definitions : Definitions) (label : List Char) : Option Target :=
  if (key label).isEmpty then none else List.lookup (key label) definitions

def Definitions.add (definitions : Definitions) (label : List Char) (target : Target) : Definitions :=
  definitions ++ [(key label, target)]

/-- What follows the end of a line, if nothing but blanks comes before it. -/
def endOfLine? (cs : List Char) : Option (List Char) :=
  match cs.dropWhile isLineBlank with
  | [] => some []
  | '\n' :: rest => some rest
  | _ => none

/-- Blanks with at most one line break among them are skipped; content holds no blank line. -/
def definition? (cs : List Char) : Option (List Char × Target × List Char) := do
  let inside ←
    match cs with
    | '[' :: rest => some rest
    | _ => none
  let (label, rest) ← label? inside
  let rest ←
    match rest with
    | ':' :: rest => some (skipGap rest)
    | _ => none
  if (key label).isEmpty ∨ rest.isEmpty then none
  let (destination, afterDestination) ← destination? rest
  if destination.isEmpty ∧ rest.head? ≠ some '<' then none
  let gap := skipGap afterDestination
  let titled : Option (List Char × List Char) := do
    if gap.length = afterDestination.length then none
    let (title, after) ← title? gap
    let next ← endOfLine? after
    return (title, next)
  match titled with
  | some (title, next) => return (label, ⟨plain destination, plain title⟩, next)
  | none =>
      let next ← endOfLine? afterDestination
      return (label, ⟨plain destination, []⟩, next)

end UsageBoard.Markup.Link
