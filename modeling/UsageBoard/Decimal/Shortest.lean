import UsageBoard.Decimal.Binary

/-!
# The fewest digits that read back

`Binary.shortest` selects, among the decimals that round to a given number, one with the fewest
digits, and of those the nearest to the number.
-/

namespace UsageBoard.Decimal

namespace Binary

/-- Whether a decimal lies among the reals that round to the number. -/
def readsBack (x : Binary) (d : Scaled) : Bool :=
  let low := if x.narrowBelow then 4 * x.mantissa - 1 else 4 * x.mantissa - 2
  let high := 4 * x.mantissa + 2
  let inclusive := x.mantissa % 2 == 0
  let atLow := compareScaled d.digits d.exponent low (x.exponent - 2)
  let atHigh := compareScaled d.digits d.exponent high (x.exponent - 2)
  (atLow == .gt || (inclusive && atLow == .eq)) && (atHigh == .lt || (inclusive && atHigh == .eq))

/-- The first of `k`, `k + 1`, … whose power of ten exceeds the number, looking `steps` far. -/
def scaleFrom (x : Binary) : Nat → Int → Int
  | 0, k => k
  | steps + 1, k =>
      if compareScaled 1 k x.mantissa x.exponent == .gt then k else scaleFrom x steps (k + 1)

/-- The least `k` such that the number is below `10 ^ k`, for a number other than zero.  The
estimate from the binary logarithm is never too high and at most two too low. -/
def scale (x : Binary) : Int :=
  scaleFrom x 4 (((Nat.log2 x.mantissa : Int) + x.exponent) * 30103 / 100000 - 1)

/-- The greatest whole multiple of `10 ^ exponent` that is not above the number. -/
def floorAt (x : Binary) (exponent : Int) : Nat :=
  (x.mantissa * Nat.pow 2 x.exponent.toNat * Nat.pow 10 (-exponent).toNat) /
    (Nat.pow 2 (-x.exponent).toNat * Nat.pow 10 exponent.toNat)

/-- The neighbour of the number on the grid `10 ^ exponent` that reads back, the nearer one if
both do. -/
def neighbour? (tie : Tie) (x : Binary) (exponent : Int) : Option Scaled :=
  let below : Scaled := ⟨x.floorAt exponent, exponent⟩
  let above : Scaled := ⟨x.floorAt exponent + 1, exponent⟩
  match x.readsBack below, x.readsBack above with
  | true, false => some below
  | false, true => some above
  | false, false => none
  | true, true =>
      match compareScaled (2 * below.digits + 1) exponent (2 * x.mantissa) x.exponent, tie with
      | .gt, _ => some below
      | .lt, _ => some above
      | .eq, .up => some above
      | .eq, .toEven => if below.digits % 2 = 0 then some below else some above

def exactly (x : Binary) : Scaled :=
  if 0 ≤ x.exponent then ⟨x.mantissa * Nat.pow 2 x.exponent.toNat, 0⟩
  else ⟨x.mantissa * Nat.pow 5 (-x.exponent).toNat, x.exponent⟩

end Binary

/-- Moves trailing zeros of the digits into the exponent, at most `steps` of them. -/
def Scaled.stripFrom : Nat → Scaled → Scaled
  | 0, d => d
  | steps + 1, d =>
      if d.digits ≠ 0 ∧ d.digits % 10 = 0 then stripFrom steps ⟨d.digits / 10, d.exponent + 1⟩ else d

/-- The same decimal with no trailing zero among its digits. -/
def Scaled.strip (d : Scaled) : Scaled :=
  stripFrom (Nat.log2 d.digits) d

/-- The decimal with the fewest digits that rounds to the number; no number needs more than
seventeen. -/
def Binary.shortest (tie : Tie) (x : Binary) : Scaled :=
  if x.mantissa = 0 then ⟨0, 0⟩
  else
    (((List.range 17).findSome? fun n => x.neighbour? tie (x.scale - ((n + 1 : Nat) : Int))).getD x.exactly).strip

end UsageBoard.Decimal
