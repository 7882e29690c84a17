import UsageBoard.Decimal.Layout

/-!
# A fixed number of places

The exact value of a number is rounded to a given number of decimal places; a value exactly
between two candidates goes to the even one.
-/

namespace UsageBoard.Decimal

/-- The number of units of `10 ^ -places` nearest to a magnitude. -/
def Binary.unitsAt (x : Binary) (places : Nat) : Nat :=
  roundedQuotient .toEven (x.mantissa * Nat.pow 2 x.exponent.toNat * Nat.pow 10 places)
    (Nat.pow 2 (-x.exponent).toNat)

/-- A number of units of `10 ^ -places` as digits with a point. -/
def placed (units places : Nat) : List Char :=
  if places = 0 then naturalDigits units else pointed (naturalDigits units) places

/-- The text of a number with a fixed number of places; a negative number keeps its sign even
when it rounds to zero. -/
def fixed (places : Nat) (x : Float) : String :=
  let sign := if isNegative x then "-" else ""
  match Magnitude.of x with
  | .notANumber => "NaN"
  | .infinite => sign ++ "inf"
  | .finite value => sign ++ String.ofList (placed (value.unitsAt places) places)

end UsageBoard.Decimal
