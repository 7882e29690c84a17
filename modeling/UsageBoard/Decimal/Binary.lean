/-!
# Floating point numbers as exact values

A finite floating point number is a natural number times a power of two.  Everything that is
written about a number is computed from that exact value, in integers.
-/

namespace UsageBoard.Decimal

/-- The magnitude `mantissa * 2 ^ exponent` of a finite floating point number. -/
structure Binary where
  mantissa : Nat
  exponent : Int
  /-- The gap to the number below is half the gap to the number above. -/
  narrowBelow : Bool
deriving Repr, DecidableEq

/-- The decimal number `digits * 10 ^ exponent`. -/
structure Scaled where
  digits : Nat
  exponent : Int
deriving Repr, DecidableEq

inductive Magnitude where
  | notANumber
  | infinite
  | finite (value : Binary)
deriving Repr, DecidableEq

/-- The finite magnitude that the bits of a number stand for. -/
def Binary.ofBits (bits : UInt64) : Binary :=
  let biased := ((bits >>> 52) &&& 0x7FF).toNat
  let fraction := (bits &&& 0xFFFFFFFFFFFFF).toNat
  if biased = 0 then ⟨fraction, -1074, false⟩
  else ⟨0x10000000000000 + fraction, (biased : Int) - 1075, fraction == 0 && decide (1 < biased)⟩

/-- Whether the sign bit is set; it is set for the negative zero too. -/
def isNegative (x : Float) : Bool :=
  !x.isNaN && x.toBits >>> 63 == 1

def Magnitude.of (x : Float) : Magnitude :=
  if x.isNaN then .notANumber
  else if x.isInf then .infinite
  else .finite (Binary.ofBits x.toBits)

/-- Compares `a * 10 ^ i` with `n * 2 ^ j`, exactly. -/
def compareScaled (a : Nat) (i : Int) (n : Nat) (j : Int) : Ordering :=
  compare (a * Nat.pow 10 i.toNat * Nat.pow 2 (-j).toNat)
    (n * Nat.pow 2 j.toNat * Nat.pow 10 (-i).toNat)

/-- How a value that lies exactly between two candidates is decided. -/
inductive Tie where
  | toEven
  | up
deriving Repr, DecidableEq

/-- The quotient rounded to the nearest natural number. -/
def roundedQuotient (tie : Tie) (numerator denominator : Nat) : Nat :=
  let quotient := numerator / denominator
  match compare (2 * (numerator % denominator)) denominator, tie with
  | .lt, _ => quotient
  | .gt, _ => quotient + 1
  | .eq, .up => quotient + 1
  | .eq, .toEven => if quotient % 2 = 0 then quotient else quotient + 1

def whole? (x : Float) : Option Int :=
  match Magnitude.of x with
  | .finite v =>
      let unit := Nat.pow 2 (-v.exponent).toNat
      if v.mantissa % unit = 0 then
        let size : Nat := v.mantissa / unit * Nat.pow 2 v.exponent.toNat
        some (if isNegative x then -(size : Int) else size)
      else none
  | _ => none

end UsageBoard.Decimal
