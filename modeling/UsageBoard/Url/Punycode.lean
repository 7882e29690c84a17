/-!
# Labels beyond ASCII

A label of a domain that is not ASCII is written as its ASCII characters and, after a hyphen, the
places and numbers of its other characters as distances in a base of thirty-six.  The base's
digits adapt to the size of the distances.
-/

namespace UsageBoard.Url.Punycode

def digitChar (d : Nat) : Char :=
  if d < 26 then Char.ofNat ('a'.toNat + d) else Char.ofNat ('0'.toNat + (d - 26))

def digitValue? (c : Char) : Option Nat :=
  if 'a' ≤ c ∧ c ≤ 'z' then some (c.toNat - 'a'.toNat)
  else if 'A' ≤ c ∧ c ≤ 'Z' then some (c.toNat - 'A'.toNat)
  else if c.isDigit then some (c.toNat - '0'.toNat + 26)
  else none

/-- The threshold of the digit at a position, between one and twenty-six. -/
def threshold (position bias : Nat) : Nat := max 1 (min 26 (position - bias))

/-- Divides a distance until it is small, and counts the divisions. -/
def shrink : (fuel : Nat) → (count distance : Nat) → Nat × Nat
  | 0, count, distance => (count, distance)
  | fuel + 1, count, distance =>
      if 455 < distance then shrink fuel (count + 1) (distance / 35) else (count, distance)

/-- The bias after a distance, given how many characters there are now. -/
def adapt (distance size : Nat) (first : Bool) : Nat :=
  let start := if first then distance / 700 else distance / 2
  let (count, small) := shrink start 0 (start + start / size)
  36 * count + 36 * small / (small + 38)

def distanceDigits (bias : Nat) : (fuel position distance : Nat) → List Char
  | 0, _, _ => []
  | fuel + 1, position, distance =>
      let t := threshold position bias
      if distance < t then [digitChar distance]
      else
        digitChar (t + (distance - t) % (36 - t)) ::
          distanceDigits bias fuel (position + 36) ((distance - t) / (36 - t))

structure Progress where
  written : List Char
  distance : Nat
  bias : Nat
  /-- How many characters are encoded. -/
  size : Nat

/-- Goes past one character of the label while the one with the number `current` is looked for. -/
def Progress.step (basic current : Nat) (p : Progress) (c : Char) : Progress :=
  if c.toNat < current then { p with distance := p.distance + 1 }
  else if c.toNat = current then
    ⟨p.written ++ distanceDigits p.bias (p.distance + 1) 36 p.distance, 0,
      adapt p.distance (p.size + 1) (p.size == basic), p.size + 1⟩
  else p

/-- Encodes the characters with the given numbers, which ascend. -/
def encodeNumbers (label : List Char) (basic : Nat) : List Nat → (next : Nat) → Progress → Progress
  | [], _, p => p
  | n :: rest, next, p =>
      let started := { p with distance := p.distance + (n - next) * (p.size + 1) }
      let done := label.foldl (Progress.step basic n) started
      encodeNumbers label basic rest (n + 1) { done with distance := done.distance + 1 }

def encode (label : List Char) : List Char :=
  let basic := label.filter fun c => decide (c.toNat < 0x80)
  let numbers := ((label.map Char.toNat).filter fun n => decide (0x80 ≤ n)).mergeSort.eraseDups
  let p := encodeNumbers label basic.length numbers 0x80 ⟨[], 0, 72, basic.length⟩
  basic ++ (if basic.isEmpty then [] else ['-']) ++ p.written

def readDistance (bias : Nat) : (position weight value : Nat) → List Char → Option (Nat × List Char)
  | _, _, _, [] => none
  | position, weight, value, c :: rest => do
      let digit ← digitValue? c
      let value := value + digit * weight
      let t := threshold position bias
      if digit < t then some (value, rest)
      else readDistance bias (position + 36) (weight * (36 - t)) value rest

/-- Reads the distances and puts the characters in their places; `place` is where the last one
was put, plus one. -/
def decodeDistances : (fuel : Nat) → (number place bias : Nat) → (label digits : List Char) →
    Option (List Char)
  | _, _, _, _, label, [] => some label
  | 0, _, _, _, _, _ => none
  | fuel + 1, number, place, bias, label, digits => do
      let (distance, rest) ← readDistance bias 36 1 0 digits
      let size := label.length + 1
      let total := place + distance
      let found := number + total / size
      if found.isValidChar then
        decodeDistances fuel found (total % size + 1) (adapt distance size (place == 0))
          (label.take (total % size) ++ Char.ofNat found :: label.drop (total % size)) rest
      else none

/-- Splits at the last hyphen: the ASCII characters and the distances. -/
def splitBasic (written : List Char) : List Char × List Char :=
  if written.contains '-' then
    let distances := (written.reverse.takeWhile (· != '-')).reverse
    (written.take (written.length - distances.length - 1), distances)
  else ([], written)

def decode? (written : List Char) : Option (List Char) :=
  let (basic, distances) := splitBasic written
  decodeDistances (distances.length + 1) 0x80 0 72 basic distances

end UsageBoard.Url.Punycode
