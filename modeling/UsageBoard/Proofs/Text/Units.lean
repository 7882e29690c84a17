import UsageBoard.Text.Units

/-!
# Characters beyond 16 bits

A character that has no unit of its own is a pair of surrogates, with ten bits in each of the two.

Main statement: the units of a text are those that its characters spell (`areUnits_iff`).
-/

namespace UsageBoard.Text

/-- A list of units spells a list of characters. -/
inductive AreUnits : List Char → List Nat → Prop
  | nil : AreUnits [] []
  | single {c : Char} {cs : List Char} {rest : List Nat} (short : c.toNat < 0x10000)
      (spelled : AreUnits cs rest) : AreUnits (c :: cs) (c.toNat :: rest)
  | pair {c : Char} {cs : List Char} {rest : List Nat} {high low : Nat} (highBits : high < 0x400)
      (lowBits : low < 0x400) (long : c.toNat = 0x10000 + (0x400 * high + low))
      (spelled : AreUnits cs rest) : AreUnits (c :: cs) ((0xD800 + high) :: (0xDC00 + low) :: rest)

variable {cs : List Char} {us : List Nat}

theorem toNat_lt (c : Char) : c.toNat < 0x110000 := by
  have valid : c.toNat < 0xD800 ∨ 0xDFFF < c.toNat ∧ c.toNat < 0x110000 := c.valid
  omega

theorem areUnits_flatMap (cs : List Char) : AreUnits cs (cs.flatMap charUnits) := by
  induction cs with
  | nil => exact .nil
  | cons c cs ih =>
      have bound := toNat_lt c
      rw [List.flatMap_cons, charUnits]
      split
      · rename_i short
        exact .single short ih
      · rename_i long
        exact .pair (by omega) (by omega) (by omega) ih

theorem AreUnits.eq_flatMap (spelled : AreUnits cs us) : us = cs.flatMap charUnits := by
  induction spelled with
  | nil => rfl
  | single short _ ih => rw [List.flatMap_cons, charUnits, if_pos short, ← ih, List.singleton_append]
  | @pair c cs rest high low highBits lowBits long _ ih =>
      have first : (c.toNat - 0x10000) / 0x400 = high := by omega
      have second : (c.toNat - 0x10000) % 0x400 = low := by omega
      rw [List.flatMap_cons, charUnits, if_neg (by omega), first, second, ← ih]
      rfl

theorem areUnits_iff {s : String} : AreUnits s.toList us ↔ us = units s :=
  ⟨AreUnits.eq_flatMap, fun same => same ▸ areUnits_flatMap s.toList⟩

end UsageBoard.Text
