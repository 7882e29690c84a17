import UsageBoard.Decimal.Shortest

/-!
# Numbers as text

The shortest digits of a number are laid out with or without an exponent part.  A `Layout` holds
the decisions of one format.
-/

namespace UsageBoard.Decimal

structure Layout where
  /-- The powers of ten of the leading digit, from the first up to and without the second, that
  are written without an exponent part; all of them if there is no such range. -/
  positional : Option (Int × Int)
  /-- A whole number written without an exponent part ends in a point and a zero. -/
  pointZero : Bool
  tie : Tie

def naturalDigits (n : Nat) : List Char :=
  Nat.toDigits 10 n

/-- Digits with the point `places` digits before their end. -/
def pointed (digits : List Char) (places : Nat) : List Char :=
  let padded := List.replicate (places + 1 - digits.length) '0' ++ digits
  padded.take (padded.length - places) ++ '.' :: padded.drop (padded.length - places)

namespace Layout

/-- A decimal written without an exponent part. -/
def plain (layout : Layout) (d : Scaled) : List Char :=
  if 0 ≤ d.exponent then
    naturalDigits (d.digits * Nat.pow 10 d.exponent.toNat) ++ (if layout.pointZero then ['.', '0'] else [])
  else
    pointed (naturalDigits d.digits) (-d.exponent).toNat

/-- A decimal written as one digit, the point and the other digits, if any, and an exponent. -/
def scientific (d : Scaled) : List Char :=
  let digits := naturalDigits d.digits
  let power := d.exponent + (digits.length : Int) - 1
  let mantissa := digits.take 1 ++ (if digits.length = 1 then [] else '.' :: digits.drop 1)
  mantissa ++ 'e' :: (if power < 0 then '-' else '+') :: naturalDigits power.natAbs

def write (layout : Layout) (d : Scaled) : List Char :=
  let power := d.exponent + ((naturalDigits d.digits).length : Int) - 1
  match layout.positional with
  | none => layout.plain d
  | some (low, high) =>
      if d.digits = 0 ∨ (low ≤ power ∧ power < high) then layout.plain d else scientific d

def magnitude (layout : Layout) (x : Binary) : List Char :=
  layout.write (x.shortest layout.tie)

/-- The text of a number; `NaN` has no sign. -/
def text (layout : Layout) (x : Float) : String :=
  let sign := if isNegative x then "-" else ""
  match Magnitude.of x with
  | .notANumber => "NaN"
  | .infinite => sign ++ "inf"
  | .finite value => sign ++ String.ofList (layout.magnitude value)

end Layout

def display : Layout := ⟨none, false, .up⟩

def displayText (x : Float) : String :=
  display.text x

end UsageBoard.Decimal
