import UsageBoard.Decimal.Layout

/-!
# Dates

Days are counted from the first of January 1970 in the proleptic Gregorian calendar.
-/

namespace UsageBoard.Calendar

structure Date where
  year : Int
  month : Nat
  day : Nat
deriving Repr, DecidableEq

/-- The date of a day.  Years are counted from March, so that a leap day ends its year. -/
def Date.ofDay (day : Int) : Date :=
  let shifted := day + 719468
  let era := shifted / 146097
  let dayOfEra := (shifted % 146097).toNat
  let yearOfEra := (dayOfEra - dayOfEra / 1460 + dayOfEra / 36524 - dayOfEra / 146096) / 365
  let dayOfYear := dayOfEra - (365 * yearOfEra + yearOfEra / 4 - yearOfEra / 100)
  let monthFromMarch := (5 * dayOfYear + 2) / 153
  let day := dayOfYear - (153 * monthFromMarch + 2) / 5 + 1
  let month := if monthFromMarch < 10 then monthFromMarch + 3 else monthFromMarch - 9
  ⟨(yearOfEra : Int) + era * 400 + (if month ≤ 2 then 1 else 0), month, day⟩

def daySeconds : Int := 86400

/-- The seconds since 1970 that have a date; the dates of all others are out of range. -/
def firstSecond : Int := -8334601228800

def lastSecond : Int := 8210266876799

def representable (second : Int) : Bool :=
  decide (firstSecond ≤ second) && decide (second ≤ lastSecond)

def twoDigits (n : Nat) : String :=
  String.ofList (List.replicate (2 - (Decimal.naturalDigits n).length) '0' ++ Decimal.naturalDigits n)

def monthDay (second : Int) : String :=
  let date := Date.ofDay (second / daySeconds)
  twoDigits date.month ++ "-" ++ twoDigits date.day

def hour (second : Int) : Nat := (second % daySeconds / 3600).toNat

end UsageBoard.Calendar
