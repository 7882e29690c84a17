import UsageBoard.Environment
import UsageBoard.Log.Event
import UsageBoard.Settings.Basic
import UsageBoard.Text.Parts

/-!
# Filters of log lines

A filter is a list of directives.  Of the directives whose target begins the target of an event, the
most specific one decides whether the event is logged.
-/

namespace UsageBoard.Log

structure Directive where
  /-- How the targets begin that the directive is about. -/
  target : String
  /-- The greatest rank that passes; nothing passes with zero. -/
  limit : Nat
deriving DecidableEq, Repr

structure Filter where
  directives : List Directive
deriving DecidableEq, Repr

namespace Filter

def everything : Nat := Level.trace.rank

def number? (cs : List Char) : Option Nat :=
  let digits :=
    match cs with
    | '+' :: rest => rest
    | rest => rest
  if digits ≠ [] ∧ digits.all Char.isDigit then some (Decimal.digitsValue digits) else none

/-- The rank up to which a level's name or number lets events pass. -/
def limit? (cs : List Char) : Option Nat :=
  match number? cs with
  | some n => if n ≤ everything then some n else none
  | none =>
      let name := Text.lower (String.ofList cs)
      if name = "off" then some 0
      else (Level.all.find? fun level => level.name == name).map Level.rank

/-- The limit after an equals sign; without a name everything passes. -/
def limitOrAll? (cs : List Char) : Option Nat := if cs.isEmpty then some everything else limit? cs

def canStart (c : Char) : Bool := c.isAlphanum || c == '-' || c == ':' || c == '_' || decide (0x80 ≤ c.toNat)

inductive SpanState where
  | span
  | field (isEmpty : Bool)
  | fields
  | done
deriving DecidableEq

/-- Whether what follows an opening bracket names a span, and its fields, and a level.  There are no
spans, so that such a directive lets nothing pass. -/
def isSpan : SpanState → List Char → Bool
  | state, [] => state == .done
  | .span, c :: rest =>
      if c = ']' then isSpan .done rest
      else if c = '\x7b' then isSpan (.field true) rest
      else isSpan .span rest
  | .field isEmpty, c :: rest =>
      if c = '\x7d' then !isEmpty && isSpan .fields rest
      else isSpan (.field false) rest
  | .fields, c :: rest => c == ']' && isSpan .done rest
  | .done, c :: rest => c == '=' && (limitOrAll? rest).isSome

/-- Reads a directive.  Its target and its level are cut out of the text with the blanks in front,
at the places that they have without them.  A directive about spans is none. -/
def directive? (cs : List Char) : Option (Option Directive) :=
  let trimmed := Text.trimBy Text.isBlank cs
  match trimmed with
  | [] => none
  | first :: _ =>
      if first = '[' then
        if isSpan .span trimmed.tail then some none else none
      else if !canStart first then none
      else
        let size := (trimmed.takeWhile fun c => c != '=' && c != '[').length
        match trimmed.drop size with
        | '=' :: _ =>
            (limitOrAll? (cs.drop (size + 1))).map fun limit => some ⟨String.ofList (cs.take size), limit⟩
        | _ :: rest => if isSpan .span rest then some none else none
        | [] =>
            match limit? cs with
            | some limit => some (some ⟨"", limit⟩)
            | none => some (some ⟨String.ofList cs, everything⟩)

def add (filter : Filter) (directive : Directive) : Filter :=
  ⟨directive :: filter.directives.filter fun other => other.target != directive.target⟩

/-- Reads directives between commas; the filter without any lets nothing pass. -/
def parse? (text : String) : Option Filter :=
  let parts := (Text.parts ',' text.toList).filter fun part => !part.isEmpty
  (parts.mapM directive?).map fun directives =>
    directives.foldl (fun filter directive => (directive.map filter.add).getD filter) ⟨[]⟩

def ofLevel (level : Level) : Filter := ⟨[⟨"", level.rank⟩]⟩

def variableName : String := "RUST_LOG"

def ofSettings (env : Environment) (logging : Settings.Logging) : Filter :=
  let byLevel := ofLevel logging.level
  match env.text? variableName, logging.filter with
  | some text, _ => (parse? text).getD byLevel
  | none, some directives => (parse? (logging.level.name ++ "," ++ directives)).getD byLevel
  | none, none => byLevel

/-- The limit that the most specific directive sets for a target. -/
def limit (filter : Filter) (target : String) : Nat :=
  (filter.directives.foldl (fun best directive =>
    if Text.startsWith target directive.target ∧
        best.all fun other => other.target.length < directive.target.length
    then some directive else best) none).elim 0 Directive.limit

def passes (filter : Filter) (event : Event) : Bool :=
  decide (event.level.rank ≤ filter.limit event.target)

end Filter

end UsageBoard.Log
