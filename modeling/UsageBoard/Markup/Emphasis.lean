import UsageBoard.Markup.Inline
import UsageBoard.Text.Blank
import UsageBoard.Text.Punctuation

/-!
# Emphasis

Runs of stars, underscores and tildes open and close emphasis.  `Emphasis.resolve` pairs them: a
closing run takes the nearest opening run that fits, and what opens in between is text.
-/

namespace UsageBoard.Markup.Emphasis

structure Run where
  sign : Char
  length : Nat
  opens : Bool
  closes : Bool
deriving Repr, DecidableEq

inductive Piece where
  | part (content : Inline)
  | run (run : Run)

/-- Whether a run may open and close, from the characters before and after it; the ends of the
content count as blanks. -/
def Run.at (sign : Char) (length : Nat) (before after : Option Char) : Run :=
  let blankBefore := before.all Text.isBlank
  let blankAfter := after.all Text.isBlank
  let pointBefore := before.any Text.isPunctuation
  let pointAfter := after.any Text.isPunctuation
  let leftFlanking := !blankAfter && (!pointAfter || blankBefore || pointBefore)
  let rightFlanking := !blankBefore && (!pointBefore || blankAfter || pointAfter)
  match sign with
  | '_' => ⟨sign, length, leftFlanking && (!rightFlanking || pointBefore),
      rightFlanking && (!leftFlanking || pointAfter)⟩
  | '~' =>
      if length = 1 then ⟨sign, length, !blankAfter && (blankBefore || pointBefore),
        !blankBefore && (blankAfter || pointAfter)⟩
      else ⟨sign, length, !blankAfter, rightFlanking⟩
  | _ => ⟨sign, length, leftFlanking, rightFlanking⟩

/-- An opening run, what is left of it, and the content after it, the last part first. -/
structure Opener where
  run : Run
  left : Nat
  inside : List Inline

def runText (sign : Char) (count : Nat) : List Inline :=
  if count = 0 then [] else [.text (List.replicate count sign)]

/-- Whether an opening run and a closing run fit: tildes must be equally many, and for runs that
both open and close the sum of the lengths is no multiple of three unless both lengths are. -/
def fits (opener : Opener) (closer : Run) : Bool :=
  opener.run.sign == closer.sign &&
    (closer.sign != '~' || opener.left == closer.length) &&
    (!((closer.opens && closer.closes) || (opener.run.opens && opener.run.closes)) ||
      (opener.run.length + closer.length) % 3 != 0 || closer.length % 3 == 0)

/-- The emphasis of `count` delimiters around content: pairs inside, a single one outside. -/
def wrap (sign : Char) : (count : Nat) → List Inline → List Inline
  | 0, parts => parts
  | 1, parts => if sign = '~' then [.struck parts] else [.emphasis parts]
  | count + 2, parts => wrap sign count (if sign = '~' then [.struck parts] else [.strong parts])

/-- The openers, the innermost first, above the content before the outermost. -/
structure Stack where
  openers : List Opener
  outside : List Inline

namespace Stack

/-- Appends parts, the last first. -/
def append (stack : Stack) (parts : List Inline) : Stack :=
  match stack.openers with
  | [] => ⟨[], parts ++ stack.outside⟩
  | opener :: openers => ⟨⟨opener.run, opener.left, parts ++ opener.inside⟩ :: openers, stack.outside⟩

def flattenOne (stack : Stack) : Stack :=
  match stack.openers with
  | [] => stack
  | opener :: openers =>
      append ⟨openers, stack.outside⟩ (opener.inside ++ runText opener.run.sign opener.left)

/-- Turns the innermost openers into text, as many as given. -/
def flatten : (count : Nat) → Stack → Stack
  | 0, stack => stack
  | count + 1, stack => flatten count stack.flattenOne

/-- Closes emphasis with the delimiters of a run, of which some are left, and leaves the others to
open or to be text. -/
def close (run : Run) : (steps left : Nat) → Stack → Stack
  | 0, left, stack => stack.append (runText run.sign left)
  | steps + 1, left, stack =>
      match stack.openers.findIdx? (fits · run) with
      | none =>
          if run.opens then ⟨⟨run, left, []⟩ :: stack.openers, stack.outside⟩
          else stack.append (runText run.sign left)
      | some index =>
          let cleared := flatten index stack
          match cleared.openers with
          | [] => cleared
          | opener :: openers =>
              let count := min left opener.left
              let inner := wrap run.sign count opener.inside.reverse
              let stack : Stack :=
                if count < opener.left then
                  ⟨⟨opener.run, opener.left - count, inner.reverse⟩ :: openers, cleared.outside⟩
                else append ⟨openers, cleared.outside⟩ inner.reverse
              if left = count then stack else close run steps (left - count) stack

def push (stack : Stack) : Piece → Stack
  | .part content => stack.append [content]
  | .run run =>
      if run.closes then close run (run.length + 1) run.length stack
      else if run.opens then ⟨⟨run, run.length, []⟩ :: stack.openers, stack.outside⟩
      else stack.append (runText run.sign run.length)

end Stack

def resolve (pieces : List Piece) : List Inline :=
  let stack := pieces.foldl Stack.push ⟨[], []⟩
  (stack.flatten stack.openers.length).outside.reverse

end UsageBoard.Markup.Emphasis
