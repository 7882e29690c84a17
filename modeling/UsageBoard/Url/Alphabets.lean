import UsageBoard.Url.Domain
import UsageBoard.Url.Punycode

/-!
# Domains in the alphabets of Europe

The tables of Unicode for domains are large.  A program that is started has of them what the alphabets of
Europe need: letters lose their case, characters of full width become plain, and a label with other
characters gets its written form.
-/

namespace UsageBoard.Url.Alphabets

def isIgnored (c : Char) : Bool :=
  c == '\u00ad' || c == '\u200b' || c == '\u2060' || c == '\ufeff' ||
    (decide (0xFE00 ≤ c.toNat) && decide (c.toNat ≤ 0xFE0F))

def isStop (c : Char) : Bool := c == '\u3002' || c == '\uff0e' || c == '\uff61'

/-- A letter in lower case, for the alphabets of Europe. -/
def lowerNumber (n : Nat) : Nat :=
  if 0xC0 ≤ n ∧ n ≤ 0xDE ∧ n ≠ 0xD7 then n + 32
  else if (0x100 ≤ n ∧ n ≤ 0x137 ∧ n ≠ 0x130) ∨ (0x14A ≤ n ∧ n ≤ 0x177) then n / 2 * 2 + 1
  else if 0x139 ≤ n ∧ n ≤ 0x148 ∧ n % 2 = 1 then n + 1
  else if 0x391 ≤ n ∧ n ≤ 0x3A9 then n + 32
  else if 0x400 ≤ n ∧ n ≤ 0x40F then n + 80
  else if 0x410 ≤ n ∧ n ≤ 0x42F then n + 32
  else if 0x531 ≤ n ∧ n ≤ 0x556 then n + 48
  else n

/-- A character of a domain in the form in which it counts. -/
def foldChar (c : Char) : Char :=
  let n := c.toNat
  if isStop c then '.'
  else if 0xFF01 ≤ n ∧ n ≤ 0xFF5E then (Char.ofNat (n - 0xFF01 + 0x21)).toLower
  else if isAscii c then c.toLower
  else Char.ofNat (lowerNumber n)

/-- Characters beyond ASCII that no domain has: controls, blanks, joiners, private and missing ones. -/
def isExcluded (c : Char) : Bool :=
  let n := c.toNat
  (decide (0x80 ≤ n) && decide (n ≤ 0xA0)) || (decide (0x2000 ≤ n) && decide (n ≤ 0x200A)) ||
    (decide (0x200C ≤ n) && decide (n ≤ 0x200F)) || (decide (0x2028 ≤ n) && decide (n ≤ 0x202F)) ||
    n == 0x205F || n == 0x3000 || (decide (0xE000 ≤ n) && decide (n ≤ 0xF8FF)) ||
    (decide (0xFFF9 ≤ n) && decide (n ≤ 0xFFFF)) || decide (0xE0000 ≤ n)

def isRefused (c : Char) : Bool := isForbidden c || isExcluded c

/-- Whether a label in ASCII is sound: a written form must have a label. -/
def isGenuine (label : List Char) : Bool :=
  if writtenStart.isPrefixOf label then
    match Punycode.decode? (label.drop writtenStart.length) with
    | some decoded =>
        decoded.any (fun c => !isAscii c) && !decoded.any isRefused &&
          Punycode.encode decoded == label.drop writtenStart.length
    | none => false
  else true

def labelChars (label : List Char) : List Char :=
  if label.all isAscii then label else writtenStart ++ Punycode.encode label

scoped instance names : DomainNames where
  written? domain :=
    let folded := (domain.filter fun c => !isIgnored c).map foldChar
    if folded.any isRefused then none
    else
      let labels := (Text.parts '.' folded).map labelChars
      if labels.all isGenuine then some (Text.join '.' labels) else none

end UsageBoard.Url.Alphabets
