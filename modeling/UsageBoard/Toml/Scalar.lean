import UsageBoard.Toml.Quoted
import UsageBoard.Words

/-!
# Numbers, words and dates in TOML texts

A scalar without quotes is a run of characters: a word, an integer in one of four bases, a floating
point number, or a date.
-/

namespace UsageBoard.Toml

open UsageBoard.Document (Node)
open UsageBoard.Decimal (digitsValue nearest signed splitSign)

def isScalarChar (c : Char) : Bool :=
  c.isAlphanum || c == '+' || c == '-' || c == '_' || c == '.' || c == ':'

def digits? (isDigit : Char → Bool) : List Char → Option (List Char)
  | [] => none
  | [c] => if isDigit c then some [c] else none
  | c :: '_' :: rest => if isDigit c then (digits? isDigit rest).map (c :: ·) else none
  | c :: rest => if isDigit c then (digits? isDigit rest).map (c :: ·) else none

/-- Decimal digits of which the first is zero only if it is the only one. -/
def plainDigits? (cs : List Char) : Option (List Char) := do
  let digits ← digits? Char.isDigit cs
  if digits.head? = some '0' ∧ 1 < digits.length then none else some digits

def base? : Char → Option Nat
  | 'x' => some 16
  | 'o' => some 8
  | 'b' => some 2
  | _ => none

def isDigitOf (base : Nat) (c : Char) : Bool :=
  match Json.hexValue? c with
  | some value => decide (value < base)
  | none => false

def valueIn (base : Nat) (digits : List Char) : Nat :=
  digits.foldl (fun n c => base * n + (Json.hexValue? c).getD 0) 0

/-- The node of an integer; one that does not fit into 128 bits has no value. -/
def integerNode (n : Int) : Node :=
  if -(Words.int128End : Int) ≤ n ∧ n < Words.uint128End then .integer n else .unusable

/-- An integer in base ten with or without a sign, or in another base without one. -/
def integer? : List Char → Option Node
  | '0' :: letter :: digits =>
      match base? letter with
      | some base => (digits? (isDigitOf base) digits).map fun ds => integerNode (valueIn base ds)
      | none => none
  | cs =>
      let (negative, unsigned) := splitSign cs
      (plainDigits? unsigned).map fun digits =>
        integerNode (if negative then -(digitsValue digits : Int) else digitsValue digits)

def power? (cs : List Char) : Option Int := do
  let (negative, unsigned) := splitSign cs
  let digits ← digits? Char.isDigit unsigned
  return if negative then -(digitsValue digits : Int) else digitsValue digits

def isExponentMark (c : Char) : Bool := c == 'e' || c == 'E'

/-- The node of a decimal; one that is out of range has no value. -/
def realNode (negative : Bool) (digits : Nat) (exponent : Int) : Node :=
  let x := nearest digits exponent
  if x.isInf then .unusable else .real (signed negative x)

def decimal? (negative : Bool) (cs : List Char) : Option Node := do
  let mantissa := cs.takeWhile fun c => !isExponentMark c
  let exponent ←
    match cs.dropWhile fun c => !isExponentMark c with
    | [] => some 0
    | _ :: digits => power? digits
  let whole ← plainDigits? (mantissa.takeWhile (· != '.'))
  match mantissa.dropWhile (· != '.') with
  | [] => return realNode negative (digitsValue whole) exponent
  | _ :: places => do
      let fraction ← digits? Char.isDigit places
      return realNode negative (digitsValue (whole ++ fraction)) (exponent - fraction.length)

def real? (cs : List Char) : Option Node :=
  let (negative, unsigned) := splitSign cs
  if unsigned = "inf".toList then some (.real (signed negative (1.0 / 0.0)))
  else if unsigned = "nan".toList then some (.real (0.0 / 0.0))
  else decimal? negative unsigned

/-- A number of a fixed count of digits within bounds, at the front of a text. -/
def field? (count low high : Nat) (cs : List Char) : Option (Nat × List Char) :=
  let digits := cs.take count
  let value := digitsValue digits
  if digits.length = count ∧ digits.all Char.isDigit ∧ low ≤ value ∧ value ≤ high then
    some (value, cs.drop count)
  else none

def after? (c : Char) : List Char → Option (List Char)
  | [] => none
  | d :: rest => if d = c then some rest else none

def monthLength (year month : Nat) : Nat :=
  if month = 2 then
    if year % 4 = 0 ∧ (year % 100 ≠ 0 ∨ year % 400 = 0) then 29 else 28
  else if month = 4 ∨ month = 6 ∨ month = 9 ∨ month = 11 then 30
  else 31

def afterDate? (cs : List Char) : Option (List Char) := do
  let (year, cs) ← field? 4 0 9999 cs
  let (month, cs) ← field? 2 1 12 (← after? '-' cs)
  let (_, cs) ← field? 2 1 (monthLength year month) (← after? '-' cs)
  return cs

/-- What follows the seconds of a time, which may be left out. -/
def afterSeconds? (cs : List Char) : Option (List Char) :=
  match after? ':' cs with
  | none => some cs
  | some cs => do
      let (_, cs) ← field? 2 0 60 cs
      match after? '.' cs with
      | none => return cs
      | some fraction =>
          if (fraction.takeWhile Char.isDigit).isEmpty then none
          else return fraction.dropWhile Char.isDigit

def afterTime? (cs : List Char) : Option (List Char) := do
  let (_, cs) ← field? 2 0 23 cs
  let (_, cs) ← field? 2 0 59 (← after? ':' cs)
  afterSeconds? cs

def isZone : List Char → Bool
  | [] => true
  | ['Z'] | ['z'] => true
  | sign :: cs =>
      (sign == '+' || sign == '-') &&
        (do
          let (_, cs) ← field? 2 0 23 cs
          let (_, cs) ← field? 2 0 59 (← after? ':' cs)
          return cs) == some []

def isDate (cs : List Char) : Bool :=
  match afterDate? cs with
  | some [] => true
  | some (mark :: time) =>
      (mark == 'T' || mark == 't' || mark == ' ') && ((afterTime? time).map isZone).getD false
  | none => afterTime? cs == some []

/-- The key of the only member of the table that stands for a date. -/
def dateKey : String := "$__toml_private_datetime"

def dateNode (cs : List Char) : Node := .table [(some dateKey, .text (String.ofList cs))]

def scalarNode? (cs : List Char) : Option Node :=
  if cs = "true".toList then some (.bool true)
  else if cs = "false".toList then some (.bool false)
  else
    match integer? cs, real? cs with
    | some node, _ => some node
    | none, some node => some node
    | none, none => if isDate cs then some (dateNode cs) else none

/-- The run of characters at the front of a text; a date and a time may have one space between
them. -/
def scalarRun (cs : List Char) : List Char × List Char :=
  let run := cs.takeWhile isScalarChar
  match afterDate? run, cs.dropWhile isScalarChar with
  | some [], ' ' :: rest =>
      if (field? 2 0 99 rest).isSome then
        (run ++ ' ' :: rest.takeWhile isScalarChar, rest.dropWhile isScalarChar)
      else (run, ' ' :: rest)
  | _, rest => (run, rest)

def readScalar? (cs : List Char) : Option (Node × List Char) :=
  let (run, rest) := scalarRun cs
  (scalarNode? run).map fun node => (node, rest)

end UsageBoard.Toml
