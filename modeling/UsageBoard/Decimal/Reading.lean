import UsageBoard.Decimal.Binary

/-!
# Numbers from text

`nearest` is the floating point number nearest to a decimal.  `parse?` reads the texts that
settings and stored values hold: a sign, digits with a point, an exponent, or the names of the
special values.
-/

namespace UsageBoard.Decimal

/-- The number nearest to `digits * 10 ^ exponent`, infinite when that is out of range. -/
def nearest (digits : Nat) (exponent : Int) : Float :=
  let magnitude := exponent + (Nat.log2 digits : Int) * 30103 / 100000
  if digits = 0 then 0.0
  else if magnitude < -400 then 0.0
  else if 400 < magnitude then 1.0 / 0.0
  else Float.ofScientific digits (decide (exponent < 0)) exponent.natAbs

def signed (negative : Bool) (x : Float) : Float :=
  if negative then -x else x

def ofInt (n : Int) : Float :=
  signed (decide (n < 0)) (nearest n.natAbs 0)

/-- The number that a list of digits denotes, continuing one already read. -/
def digitsFrom (value : Nat) (digits : List Char) : Nat :=
  digits.foldl (fun n c => 10 * n + (c.toNat - '0'.toNat)) value

def digitsValue (digits : List Char) : Nat :=
  digitsFrom 0 digits

/-- Splits a sign from the front: whether it is a minus, and the rest. -/
def splitSign : List Char → Bool × List Char
  | '-' :: rest => (true, rest)
  | '+' :: rest => (false, rest)
  | rest => (false, rest)

def exponent? : List Char → Option Int
  | [] => some 0
  | c :: rest =>
      if c = 'e' ∨ c = 'E' then
        let (negative, digits) := splitSign rest
        if digits ≠ [] ∧ digits.all Char.isDigit then
          some (if negative then -(digitsValue digits : Int) else digitsValue digits)
        else none
      else none

/-- Digits with an optional point, of which at least one digit, and an optional exponent. -/
def unsigned? (cs : List Char) : Option Float :=
  let whole := cs.takeWhile Char.isDigit
  let afterWhole := cs.dropWhile Char.isDigit
  let (fraction, afterFraction) :=
    match afterWhole with
    | '.' :: rest => (rest.takeWhile Char.isDigit, rest.dropWhile Char.isDigit)
    | rest => ([], rest)
  if whole = [] ∧ fraction = [] then none
  else (exponent? afterFraction).map fun e =>
    nearest (digitsValue (whole ++ fraction)) (e - fraction.length)

/-- Reads a number; the names of the special values may be in either case. -/
def parse? (s : String) : Option Float :=
  let (negative, cs) := splitSign s.toList
  let name := String.ofList (cs.map Char.toLower)
  if name = "inf" ∨ name = "infinity" then some (signed negative (1.0 / 0.0))
  else if name = "nan" then some (0.0 / 0.0)
  else (unsigned? cs).map (signed negative)

end UsageBoard.Decimal
