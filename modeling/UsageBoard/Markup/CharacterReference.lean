import UsageBoard.Json.Parser
import UsageBoard.Markup.NamedCharacters
import UsageBoard.Text.Punctuation

/-!
# References to characters

An ampersand, a name or a number, and a semicolon stand for a character; a backslash takes the
meaning from the punctuation after it.
-/

namespace UsageBoard.Markup

/-- The character of a code point; there is none for half of a surrogate pair, and zero stands for
the replacement character. -/
def codePoint? (n : Nat) : Option Char :=
  if n = 0 then some '\uFFFD'
  else if h : n.isValidChar then some (Char.ofNatAux n h)
  else none

/-- The characters of a number between `&#` and a semicolon, and what follows. -/
def numericReference? (cs : List Char) : Option (List Char × List Char) :=
  let (digits, value, limit, rest) :=
    match cs with
    | c :: hex =>
        if c = 'x' ∨ c = 'X' then
          let digits := hex.takeWhile fun d => (Json.hexValue? d).isSome
          (digits, digits.foldl (fun n d => 16 * n + (Json.hexValue? d).getD 0) 0, 6, hex.drop digits.length)
        else
          let digits := cs.takeWhile Char.isDigit
          (digits, Decimal.digitsValue digits, 7, cs.drop digits.length)
    | [] => ([], 0, 0, [])
  match rest with
  | ';' :: after =>
      if digits ≠ [] ∧ digits.length ≤ limit then (codePoint? value).map fun c => ([c], after) else none
  | _ => none

/-- The characters that a reference stands for, given what follows the ampersand, and what follows
it. -/
def reference? : List Char → Option (List Char × List Char)
  | '#' :: rest => numericReference? rest
  | cs =>
      let name := cs.takeWhile Char.isAlphanum
      match cs.drop name.length with
      | ';' :: after =>
          (NamedCharacters.find? (String.ofList name)).map fun found => (found.toList, after)
      | _ => none

/-- Replaces references and takes backslashes from punctuation, in at most as many steps as there
are characters. -/
def plainFrom : (steps : Nat) → List Char → List Char
  | 0, _ => []
  | _, [] => []
  | steps + 1, '\\' :: c :: rest =>
      if Text.isAsciiPunctuation c then c :: plainFrom steps rest else '\\' :: plainFrom steps (c :: rest)
  | steps + 1, '&' :: rest =>
      match reference? rest with
      | some (found, after) => found ++ plainFrom steps after
      | none => '&' :: plainFrom steps rest
  | steps + 1, c :: rest => c :: plainFrom steps rest

def plain (cs : List Char) : List Char := plainFrom cs.length cs

end UsageBoard.Markup
