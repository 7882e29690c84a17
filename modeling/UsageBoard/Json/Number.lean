import UsageBoard.Decimal.Reading
import UsageBoard.Document.Node
import UsageBoard.Words

/-!
# Numbers in JSON texts

An integer of 64 bits is read exactly.  Any other number is read with one rounding of its leading
digits and one of the scaling by a power of ten, which is the nearest number for all but long
numerals; a number out of range has no value.
-/

namespace UsageBoard.Json

open UsageBoard.Document (Node)
open UsageBoard.Decimal (digitsValue nearest signed)

structure Numeral where
  negative : Bool
  whole : List Char
  /-- The digits after the point; empty without a point. -/
  fraction : List Char
  /-- Whether the exponent is negative, and its digits. -/
  exponent : Option (Bool × List Char)

/-- The whole part: a single zero, or digits that do not begin with one. -/
def lexWhole (cs : List Char) : Option (List Char × List Char) :=
  match cs.takeWhile Char.isDigit with
  | [] => none
  | ['0'] => some (['0'], cs.drop 1)
  | '0' :: _ => none
  | digits => some (digits, cs.dropWhile Char.isDigit)

def lexFraction : List Char → Option (List Char × List Char)
  | '.' :: rest =>
      match rest.takeWhile Char.isDigit with
      | [] => none
      | digits => some (digits, rest.dropWhile Char.isDigit)
  | rest => some ([], rest)

def lexExponent : List Char → Option (Option (Bool × List Char) × List Char)
  | c :: rest =>
      if c = 'e' ∨ c = 'E' then
        let (negative, digits) := Decimal.splitSign rest
        match digits.takeWhile Char.isDigit with
        | [] => none
        | found => some (some (negative, found), digits.dropWhile Char.isDigit)
      else some (none, c :: rest)
  | [] => some (none, [])

def Numeral.lex (cs : List Char) : Option (Numeral × List Char) := do
  let (negative, unsigned) :=
    match cs with
    | '-' :: rest => (true, rest)
    | rest => (false, rest)
  let (whole, afterWhole) ← lexWhole unsigned
  let (fraction, afterFraction) ← lexFraction afterWhole
  let (exponent, rest) ← lexExponent afterFraction
  return (⟨negative, whole, fraction, exponent⟩, rest)

/-- Appends digits to a number as long as it fits into 64 bits; the digits left over. -/
def leading (value : Nat) : List Char → Nat × List Char
  | [] => (value, [])
  | c :: rest =>
      let longer := 10 * value + (c.toNat - '0'.toNat)
      if longer < Words.uint64End then leading longer rest else (value, c :: rest)

/-- Scales by powers of ten of at most `10 ^ 308`; three divisions bring every number of 64 bits
to zero. -/
def scaleReal : (steps : Nat) → Float → Int → Option Float
  | steps, x, exponent =>
      if exponent.natAbs ≤ 308 then
        if 0 ≤ exponent then
          let y := x * nearest 1 exponent
          if y.isInf then none else some y
        else some (x / nearest 1 (-exponent))
      else if x == 0.0 then some x
      else if 0 ≤ exponent then none
      else
        match steps with
        | 0 => some 0.0
        | steps + 1 => scaleReal steps (x / nearest 1 308) (exponent + 308)

/-- The greatest exponent that is told apart from larger ones. -/
def exponentLimit : Nat := Words.int32End

/-- The value of a numeral that is not a plain integer, if it is in range. -/
def Numeral.real? (numeral : Numeral) : Option Float :=
  let (wholeValue, wholeRest) := leading 0 numeral.whole
  let (value, fractionRest) := leading wholeValue numeral.fraction
  let shift : Int := (wholeRest.length : Int) - (numeral.fraction.length - fractionRest.length : Nat)
  let scaled (exponent : Int) := (scaleReal 3 (Decimal.ofInt value) exponent).map (signed numeral.negative)
  match numeral.exponent with
  | none => scaled shift
  | some (negative, digits) =>
      let size := digitsValue digits
      if exponentLimit ≤ size then
        if value ≠ 0 ∧ negative = false then none else some (signed numeral.negative 0.0)
      else scaled (if negative then shift - size else shift + size)

/-- The node of a numeral: an integer of 64 bits if it is spelled as one, else the number. -/
def Numeral.node (numeral : Numeral) : Node :=
  let size := digitsValue numeral.whole
  let plain := numeral.fraction = [] ∧ numeral.exponent = none
  if plain ∧ numeral.negative = false ∧ size < Words.uint64End then .integer size
  else if plain ∧ numeral.negative ∧ 0 < size ∧ size ≤ Words.int64End then .integer (-(size : Int))
  else if plain ∧ size < Words.uint64End then .real (signed numeral.negative (Decimal.ofInt size))
  else
    match numeral.real? with
    | some x => .real x
    | none => .unusable

end UsageBoard.Json
