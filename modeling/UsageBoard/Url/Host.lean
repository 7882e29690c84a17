import UsageBoard.Url.Domain
import UsageBoard.Url.Percent

/-!
# Hosts

A host is a domain or a number of the net.  Four bytes may be given as up to four numbers in one of
three bases; an address of eight pieces stands in brackets.
-/

namespace UsageBoard.Url

inductive UrlError where
  | relative
  | emptyHost
  | invalidDomain
  | invalidCharacter
  | invalidFourBytes
  | invalidEightPieces
  | badNumber
deriving DecidableEq, Repr

def UrlError.message : UrlError → String
  | relative => "relative URL without a base"
  | emptyHost => "empty host"
  | invalidDomain => "invalid international domain name"
  | invalidCharacter => "invalid domain character"
  | invalidFourBytes => "invalid IPv4 address"
  | invalidEightPieces => "invalid IPv6 address"
  | badNumber => "invalid port number"

/-! ## Four bytes -/

/-- The number that digits of a base denote, if they are digits of it. -/
def numberIn? (base : Nat) (digits : List Char) : Option Nat :=
  digits.foldlM (fun n c => (Json.hexValue? c).bind fun value =>
    if value < base then some (base * n + value) else none) 0

/-- A number in base ten, eight or sixteen; nothing but a sign of the base is zero. -/
def hostNumber? : List Char → Option Nat
  | [] => none
  | '0' :: 'x' :: digits | '0' :: 'X' :: digits => numberIn? 16 digits
  | ['0'] => some 0
  | '0' :: digits => numberIn? 8 digits
  | digits => numberIn? 10 digits

def labelsOf (domain : List Char) : List (List Char) :=
  let labels := Text.parts '.' domain
  if labels.getLast? = some [] ∧ 1 < labels.length then labels.dropLast else labels

/-- Whether a domain ends in a number, so that it must be four bytes. -/
def endsInNumber (domain : List Char) : Bool :=
  match (labelsOf domain).getLast? with
  | some label => (!label.isEmpty && label.all Char.isDigit) || (hostNumber? label).isSome
  | none => false

/-- Four bytes: all numbers but the last are bytes, and the last fills what is left. -/
def fourBytes? (domain : List Char) : Except UrlError Nat :=
  let labels := labelsOf domain
  match labels.mapM hostNumber?, decide (labels.length ≤ 4) with
  | some numbers, true =>
      let leading := numbers.dropLast
      let last := numbers.getLast?.getD 0
      if leading.all (· < 256) ∧ last < Nat.pow 256 (4 - leading.length) then
        .ok (leading.foldl (fun n byte => 256 * n + byte) 0 * Nat.pow 256 (4 - leading.length) + last)
      else .error .invalidFourBytes
  | _, _ => .error .invalidFourBytes

def fourBytesChars (n : Nat) : List Char :=
  Text.join '.' ([n / 16777216, n / 65536 % 256, n / 256 % 256, n % 256].map Decimal.naturalDigits)

/-! ## Eight pieces -/

/-- A byte in base ten without zeros in front. -/
def byte? (cs : List Char) : Option Nat :=
  if cs ≠ [] ∧ cs.length ≤ 3 ∧ cs.all Char.isDigit ∧ (cs.length = 1 ∨ cs.head? ≠ some '0') then
    let value := Decimal.digitsValue cs
    if value < 256 then some value else none
  else none

/-- The two pieces that four bytes at the end of an address give. -/
def piecesOfBytes? (cs : List Char) : Option (List Nat) :=
  match (Text.parts '.' cs).mapM byte? with
  | some [a, b, c, d] => some [256 * a + b, 256 * c + d]
  | _ => none

def piece? (cs : List Char) : Option Nat :=
  if cs ≠ [] ∧ cs.length ≤ 4 then numberIn? 16 cs else none

/-- Pieces between colons, of which the last may be four bytes. -/
def pieces? : List (List Char) → Option (List Nat)
  | [] => some []
  | [last] => if last.contains '.' then piecesOfBytes? last else (piece? last).map ([·])
  | part :: rest => do return (← piece? part) :: (← pieces? rest)

def splitGap : List Char → Option (List Char × List Char)
  | ':' :: ':' :: rest => some ([], rest)
  | c :: rest => (splitGap rest).map fun (before, after) => (c :: before, after)
  | [] => none

def piecesOf? (cs : List Char) : Option (List Nat) :=
  if cs.isEmpty then some [] else pieces? (Text.parts ':' cs)

/-- Eight pieces; one gap stands for as many zeros as are missing. -/
def eightPieces? (cs : List Char) : Option (List Nat) :=
  match splitGap cs with
  | none => (piecesOf? cs).bind fun pieces => if pieces.length = 8 then some pieces else none
  | some (before, after) => do
      let before ← if before.contains '.' then none else piecesOf? before
      let after ← piecesOf? after
      let count := before.length + after.length
      if count < 8 then return before ++ List.replicate (8 - count) 0 ++ after else none

/-- The place and the length of the first longest run of zeros. -/
def longestZeros (pieces : List Nat) : Nat × Nat :=
  (List.range 8).foldl (fun best start =>
    let length := ((pieces.drop start).takeWhile (· == 0)).length
    if best.2 < length then (start, length) else best) (0, 0)

def pieceChars (pieces : List Nat) : List Char := Text.join ':' (pieces.map (Nat.toDigits 16))

/-- Eight pieces as text: a run of two zeros or more becomes a gap. -/
def eightPiecesChars (pieces : List Nat) : List Char :=
  let (start, length) := longestZeros pieces
  if length < 2 then pieceChars pieces
  else pieceChars (pieces.take start) ++ "::".toList ++ pieceChars (pieces.drop (start + length))

/-! ## Any host -/

/-- An address of eight pieces with its brackets, given what follows the opening one. -/
def bracketed? (cs : List Char) : Except UrlError (List Char) :=
  if cs.getLast? = some ']' then
    match eightPieces? cs.dropLast with
    | some pieces => .ok ('[' :: eightPiecesChars pieces ++ [']'])
    | none => .error .invalidEightPieces
  else .error .invalidEightPieces

def netHost? [DomainNames] : List Char → Except UrlError (List Char)
  | '[' :: rest => bracketed? rest
  | cs =>
      match (String.fromUTF8? ⟨(decode cs).toArray⟩).bind fun text => domain? text.toList with
      | none => .error .invalidDomain
      | some [] => .error .emptyHost
      | some domain =>
          if endsInNumber domain then (fourBytes? domain).map fourBytesChars else .ok domain

def otherHost? : List Char → Except UrlError (List Char)
  | '[' :: rest => bracketed? rest
  | cs =>
      if cs.any fun c => "\x00\t\n\r #/:<>?@[\\]^|".toList.contains c then .error .invalidCharacter
      else .ok (encode isControl cs)

end UsageBoard.Url
