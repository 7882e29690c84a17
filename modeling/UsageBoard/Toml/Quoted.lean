import UsageBoard.Json.Parser

/-!
# Strings in TOML texts

A string stands between quotes on one line, or between triple quotes on any number of lines.  In
double quotes a backslash begins an escape; in single quotes it is a character like any other.
-/

namespace UsageBoard.Toml

def isBlank (c : Char) : Bool := c == ' ' || c == '\t'

def skipBlanks (cs : List Char) : List Char := cs.dropWhile isBlank

/-- The characters that may stand in a line: all but the controls, of which the tab may. -/
def isPlain (c : Char) : Bool := c == '\t' || (decide (0x20 ≤ c.toNat) && c != '\x7f')

def afterBreak? : List Char → Option (List Char)
  | '\n' :: rest => some rest
  | '\r' :: '\n' :: rest => some rest
  | _ => none

/-- Characters that were read, and the text after them. -/
abbrev Split := Option (List Char × List Char)

def Split.push (c : Char) (split : Split) : Split :=
  split.map fun (found, rest) => (c :: found, rest)

/-- The characters up to the quote that ends a string of one line. -/
def upToQuote (quote : Char) (escapes : Bool) : List Char → Split
  | [] => none
  | '\\' :: c :: rest =>
      if escapes then
        if isPlain c then ((upToQuote quote escapes rest).push c).push '\\' else none
      else (upToQuote quote escapes (c :: rest)).push '\\'
  | c :: rest =>
      if c = quote then some ([], rest)
      else if isPlain c then (upToQuote quote escapes rest).push c
      else none

/-- How many quotes may stand right before the three that end a string. -/
def looseQuotes : Nat := 2

/-- The characters up to the three quotes that end a string of several lines. -/
def upToQuotes (quote : Char) (escapes : Bool) : List Char → Split
  | [] => none
  | c :: rest =>
      if c = quote ∧ [quote, quote].isPrefixOf rest then
        let loose := ((rest.drop 2).take looseQuotes).takeWhile (· == quote)
        some (loose, rest.drop (2 + loose.length))
      else if escapes ∧ c = '\\' then
        match rest with
        | [] => none
        | d :: rest =>
            if isPlain d ∨ (afterBreak? (d :: rest)).isSome then
              ((upToQuotes quote escapes rest).push d).push c
            else none
      else if isPlain c ∨ (afterBreak? (c :: rest)).isSome then (upToQuotes quote escapes rest).push c
      else none

def simpleEscape? (c : Char) : Option Char :=
  if c = '"' ∨ c = '\\' then some c
  else if c = 'b' then some '\x08'
  else if c = 'e' then some '\x1b'
  else if c = 'f' then some '\x0c'
  else if c = 'n' then some '\n'
  else if c = 'r' then some '\r'
  else if c = 't' then some '\t'
  else none

def charOfHex? (digits : List Char) : Option Char := do
  let values ← digits.mapM Json.hexValue?
  let n := values.foldl (fun n value => 16 * n + value) 0
  if n.isValidChar then some (Char.ofNat n) else none

def endsLine (cs : List Char) : Bool := (afterBreak? (skipBlanks cs)).isSome

/-- Replaces the escapes.  A backslash at the end of a line stands for nothing, like the blanks and
line breaks after it, which are `dropped`. -/
def unescape : (dropped : Bool) → List Char → Option (List Char)
  | _, [] => some []
  | _, '\\' :: 'x' :: a :: b :: rest => do
      return (← charOfHex? [a, b]) :: (← unescape false rest)
  | _, '\\' :: 'u' :: a :: b :: c :: d :: rest => do
      return (← charOfHex? [a, b, c, d]) :: (← unescape false rest)
  | _, '\\' :: 'U' :: a :: b :: c :: d :: e :: f :: g :: h :: rest => do
      return (← charOfHex? [a, b, c, d, e, f, g, h]) :: (← unescape false rest)
  | _, '\\' :: c :: rest =>
      if endsLine (c :: rest) then unescape true rest
      else do return (← simpleEscape? c) :: (← unescape false rest)
  | dropped, c :: rest =>
      if c = '\\' then none
      else if dropped ∧ (isBlank c ∨ c = '\n' ∨ c = '\r') then unescape true rest
      else (unescape false rest).map (c :: ·)

def escaped (split : Split) : Option (String × List Char) := do
  let (raw, rest) ← split
  return (String.ofList (← unescape false raw), rest)

def literal (split : Split) : Option (String × List Char) :=
  split.map fun (raw, rest) => (String.ofList raw, rest)

def withoutBreak (cs : List Char) : List Char := (afterBreak? cs).getD cs

def readLineString? : List Char → Option (String × List Char)
  | '"' :: rest => escaped (upToQuote '"' true rest)
  | '\'' :: rest => literal (upToQuote '\'' false rest)
  | _ => none

/-- A string of one or several lines; a line break after the opening quotes does not count. -/
def readString? : List Char → Option (String × List Char)
  | '"' :: '"' :: '"' :: rest => escaped (upToQuotes '"' true (withoutBreak rest))
  | '\'' :: '\'' :: '\'' :: rest => literal (upToQuotes '\'' false (withoutBreak rest))
  | cs => readLineString? cs

end UsageBoard.Toml
