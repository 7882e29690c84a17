import UsageBoard.Decimal.Fixed
import UsageBoard.Decimal.Reading

/-!
# Numbers and quota for people

Large numbers are abbreviated.  Quota is shown as an amount of currency or as a plain number; a
positive quota is never shown as nothing.
-/

namespace UsageBoard

def abbreviated (x : Float) : String :=
  if 1000000000.0 ≤ x then Decimal.fixed 1 (x / 1000000000.0) ++ "B"
  else if 1000000.0 ≤ x then Decimal.fixed 1 (x / 1000000.0) ++ "M"
  else if 10000.0 ≤ x then Decimal.fixed 1 (x / 1000.0) ++ "k"
  else Decimal.displayText x

structure QuotaFormat where
  perUnit : Float
  inCurrency : Bool

/-- Multiplies `result` by the power of `base` whose exponent is given, one binary digit of the
exponent at each of the steps. -/
def powerFrom : (steps : Nat) → (result base : Float) → (exponent : Nat) → Float
  | 0, result, _, _ => result
  | steps + 1, result, base, exponent =>
      let result := if exponent % 2 = 1 then result * base else result
      if exponent / 2 = 0 then result else powerFrom steps result (base * base) (exponent / 2)

namespace QuotaFormat

def default : QuotaFormat := ⟨500000.0, true⟩

/-- The smallest amount with a number of decimals, as the reciprocal of a power of ten. -/
def smallest (digits : Nat) : Float := 1.0 / powerFrom (Nat.log2 digits + 1) 1.0 10.0 digits

def denotesZero (text : String) : Bool :=
  match Decimal.parse? text with
  | some value => value == 0.0
  | none => false

/-- The quota as an amount with a number of decimals, or abbreviated. -/
def render (format : QuotaFormat) (quota : Float) (digits : Nat) : String :=
  if format.inCurrency then
    let amount := quota / format.perUnit
    let text := Decimal.fixed digits amount
    if 0.0 < quota ∧ 0.0 < amount ∧ denotesZero text then
      "$" ++ Decimal.fixed digits (smallest digits)
    else "$" ++ text
  else abbreviated quota

/-- The quota in units of currency, with a number of decimals. -/
def inUnits (format : QuotaFormat) (quota : Float) (digits : Nat) : String :=
  Decimal.fixed digits (quota / format.perUnit)

def renderAmount (format : QuotaFormat) (amount : Float) (digits : Nat) : String :=
  (if format.inCurrency then "$" else "") ++ Decimal.fixed digits amount

/-- The same format with the settings that texts give, where they are valid. -/
def withOverrides (format : QuotaFormat) (perUnit inCurrency : Option String) : QuotaFormat where
  perUnit :=
    match perUnit.bind Decimal.parse? with
    | some value => if value.isFinite && decide (0.0 < value) then value else format.perUnit
    | none => format.perUnit
  inCurrency :=
    match inCurrency with
    | some "true" => true
    | some "false" => false
    | _ => format.inCurrency

end QuotaFormat

end UsageBoard
