import UsageBoard.Text.Parts

/-!
# Domains

A domain is written in ASCII.  One of plain labels only loses the case of its letters.  How any other is
written depends on the tables of Unicode, which are left open (`DomainNames`).
-/

namespace UsageBoard.Url

/-- How domains beyond plain labels are written in ASCII.  Unicode has it in UTS 46, as addresses use it:
characters are mapped and normalised, labels are checked, and a domain is refused that has a character
which no host has. -/
class DomainNames where
  written? : (domain : List Char) → Option (List Char)

/-- A domain with a blank or a control in it is refused: no host has them, and they are mapped to
themselves and compose with nothing. -/
def DomainNames.RefusesBlanks [DomainNames] : Prop :=
  ∀ domain, (∃ c ∈ domain, c.toNat ≤ 0x20) → DomainNames.written? domain = none

/-- Characters in ASCII that no host has. -/
def isForbidden (c : Char) : Bool :=
  decide (c.toNat ≤ 0x20) || c == '\x7f' || "%#/:<>?@[\\]^|".toList.contains c

def isAscii (c : Char) : Bool := decide (c.toNat < 0x80)

/-- How labels begin that stand for others. -/
def writtenStart : List Char := "xn--".toList

def isPlainLabel (label : List Char) : Bool := label.all isAscii && !writtenStart.isPrefixOf label

/-- A domain in ASCII, if all its characters may stand in one. -/
def domain? [DomainNames] (cs : List Char) : Option (List Char) :=
  let lowered := cs.map Char.toLower
  if (Text.parts '.' lowered).all isPlainLabel then
    if lowered.any isForbidden then none else some lowered
  else DomainNames.written? cs

end UsageBoard.Url
