/-!
# Blank and control characters

The Unicode property White_Space and the control characters, and what is done with them at the ends
of a text.
-/

namespace UsageBoard.Text

/-- The characters with the Unicode property White_Space. -/
def isBlank (c : Char) : Bool :=
  let n := c.toNat
  (decide (0x9 ≤ n) && decide (n ≤ 0xD)) || n == 0x20 || n == 0x85 || n == 0xA0 || n == 0x1680 ||
    (decide (0x2000 ≤ n) && decide (n ≤ 0x200A)) || n == 0x2028 || n == 0x2029 || n == 0x202F ||
    n == 0x205F || n == 0x3000

def isControl (c : Char) : Bool :=
  let n := c.toNat
  decide (n < 0x20) || (decide (0x7F ≤ n) && decide (n < 0xA0))

def trimBy {α : Type} (test : α → Bool) (cs : List α) : List α :=
  ((cs.dropWhile test).reverse.dropWhile test).reverse

def trim (s : String) : String := String.ofList (trimBy isBlank s.toList)

def lower (s : String) : String := String.ofList (s.toList.map Char.toLower)

def startsWith (s start : String) : Bool := start.toList.isPrefixOf s.toList

end UsageBoard.Text
