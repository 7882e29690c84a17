import Mathlib.Algebra.BigOperators.Fin
import Mathlib.Data.Int.ModEq
import Mathlib.Data.List.GetD
import Mathlib.Tactic.Ring
import UsageBoard.Palette
import UsageBoard.Proofs.Text.Units

/-!
# The hash of a name

A name is hashed in words of 32 bits that wrap around.  What they hold is the value of a polynomial whose
coefficients are the units of the name, but for multiples of `2 ^ 32`.

## Main statements

* `toInt_hashStep`: one step is a step of Horner's rule.
* `toInt_foldl_hashStep`: all steps together compute the polynomial.
* `color_of_units`: the entry of the palette that a name is given.
-/

namespace UsageBoard.Palette

open UsageBoard.Text (AreUnits areUnits_iff)

/-- The polynomial of some units at 31; the first unit has the highest power. -/
def polynomial (units : List Nat) : Int :=
  ∑ i : Fin units.length, (units[i] : Int) * 31 ^ (units.length - 1 - i)

theorem polynomial_eq_sum_range (units : List Nat) :
    polynomial units =
      ∑ i ∈ Finset.range units.length, (units.getD i 0 : Int) * 31 ^ (units.length - 1 - i) := by
  rw [polynomial, Finset.sum_range]
  simp

/-- A unit at the end raises the powers of those before it. -/
theorem polynomial_concat (units : List Nat) (unit : Nat) :
    polynomial (units ++ [unit]) = 31 * polynomial units + unit := by
  rw [polynomial_eq_sum_range, polynomial_eq_sum_range, List.length_append, List.length_singleton,
    Finset.sum_range_succ, Finset.mul_sum]
  congr 1
  · refine Finset.sum_congr rfl fun i inside => ?_
    have before : i < units.length := Finset.mem_range.mp inside
    have power : units.length + 1 - 1 - i = units.length - 1 - i + 1 := by omega
    rw [List.getD_append _ _ _ _ before, power, pow_succ]
    ring
  · simp

/-! ## Steps -/

theorem shiftLeft_five (h : Int32) : h <<< 5 = h * 32 := by
  apply Int32.toBitVec_inj.mp
  rw [Int32.toBitVec_shiftLeft, Int32.toBitVec_mul]
  exact BitVec.shiftLeft_eq_mul_twoPow h.toBitVec 5

theorem toInt_hashStep (h : Int32) (unit : Nat) :
    (hashStep h unit).toInt ≡ 31 * h.toInt + unit [ZMOD 2 ^ 32] := by
  have wraps (n : Int) : n.bmod (2 ^ 32) ≡ n [ZMOD 2 ^ 32] := Int.bmod_emod
  rw [hashStep, shiftLeft_five, Int32.toInt_add, Int32.toInt_sub, Int32.toInt_mul, Int32.toInt_ofNat']
  calc (((h.toInt * 32).bmod (2 ^ 32) - h.toInt).bmod (2 ^ 32) + (unit : Int).bmod (2 ^ 32)).bmod (2 ^ 32)
      ≡ ((h.toInt * 32).bmod (2 ^ 32) - h.toInt).bmod (2 ^ 32) + (unit : Int).bmod (2 ^ 32) [ZMOD 2 ^ 32] :=
        wraps _
    _ ≡ (h.toInt * 32).bmod (2 ^ 32) - h.toInt + unit [ZMOD 2 ^ 32] := (wraps _).add (wraps _)
    _ ≡ h.toInt * 32 - h.toInt + unit [ZMOD 2 ^ 32] := ((wraps _).sub_right _).add_right _
    _ = 31 * h.toInt + unit := by ring

theorem toInt_foldl_hashStep (units : List Nat) :
    (units.foldl hashStep 0).toInt ≡ polynomial units [ZMOD 2 ^ 32] := by
  induction units using List.reverseRecOn with
  | nil => rfl
  | append_singleton units unit ih =>
      rw [List.foldl_append, polynomial_concat]
      exact (toInt_hashStep _ unit).trans ((ih.mul_left 31).add_right unit)

/-! ## Colours -/

theorem colorsFor_length_pos (length : Nat) : 0 < (colorsFor length).length := by
  unfold colorsFor
  split <;> decide

/-- The entry that a name is given is in its palette. -/
theorem getElem?_color {model : String} (unlisted : preferred? model = none) {colors : List String}
    (palette : colorsFor (Text.units model).length = colors) :
    colors[(hash model).toInt.natAbs % colors.length]? = some (color model) := by
  subst palette
  have inside := Nat.mod_lt (hash model).toInt.natAbs (colorsFor_length_pos (Text.units model).length)
  rw [color, unlisted, Option.getD_none, hashed, List.getD_eq_getElem?_getD, List.getElem?_eq_getElem inside,
    Option.getD_some]

/-- A name that is not listed is given the entry that the hash of its units tells, of the palette that
their number tells. -/
theorem color_of_units {model : String} (unlisted : preferred? model = none) {units : List Nat}
    (spelled : AreUnits model.toList units) :
    let h := (hash model).toInt
    (h ≡ ∑ i : Fin units.length, (units[i] : Int) * 31 ^ (units.length - 1 - i) [ZMOD 2 ^ 32] ∧
        -2 ^ 31 ≤ h ∧ h < 2 ^ 31) ∧
      h.natAbs ≤ 2 ^ 31 ∧
      (10 < units.length → extendedColors[h.natAbs % 20]? = some (color model)) ∧
      (units.length ≤ 10 → baseColors[h.natAbs % 10]? = some (color model)) := by
  obtain rfl := areUnits_iff.mp spelled
  intro h
  have least : -2 ^ 31 ≤ h := (hash model).le_toInt
  have most : h < 2 ^ 31 := (hash model).toInt_lt
  refine ⟨⟨toInt_foldl_hashStep (Text.units model), least, most⟩, by omega, fun long => ?_, fun short => ?_⟩
  · exact getElem?_color unlisted (if_pos long)
  · exact getElem?_color unlisted (if_neg short.not_gt)

/-- The least hash, and a name of ten characters but eleven units. -/
theorem color_of_units_of_least :
    let least := "polygenelubricants"
    let paired := "qwen-🤖-max"
    let units := [113, 119, 101, 110, 45, 0xD83E, 0xDD16, 45, 109, 97, 120]
    preferred? least = none ∧ AreUnits least.toList (Text.units least) ∧ 10 < (Text.units least).length ∧
      (hash least).toInt = -2 ^ 31 ∧ extendedColors[2 ^ 31 % 20]? = some (color least) ∧
      preferred? paired = none ∧ AreUnits paired.toList units ∧ 10 < units.length ∧
      (hash paired).toInt = -512158483 ∧ extendedColors[512158483 % 20]? = some (color paired) := by
  intro least paired units
  have leastUnlisted : preferred? least = none := by decide +kernel
  have leastSpelled : AreUnits least.toList (Text.units least) := areUnits_iff.mpr rfl
  have leastLong : 10 < (Text.units least).length := by decide +kernel
  have leastHash : (hash least).toInt = -2 ^ 31 := by decide +kernel
  have pairedUnlisted : preferred? paired = none := by decide +kernel
  have pairedSpelled : AreUnits paired.toList units := areUnits_iff.mpr (by decide +kernel)
  have pairedLong : 10 < units.length := by decide
  have pairedHash : (hash paired).toInt = -512158483 := by decide +kernel
  obtain ⟨-, -, leastEntry, -⟩ := color_of_units leastUnlisted leastSpelled
  obtain ⟨-, -, pairedEntry, -⟩ := color_of_units pairedUnlisted pairedSpelled
  rw [leastHash] at leastEntry
  rw [pairedHash] at pairedEntry
  exact ⟨leastUnlisted, leastSpelled, leastLong, leastHash, leastEntry leastLong, pairedUnlisted, pairedSpelled,
    pairedLong, pairedHash, pairedEntry pairedLong⟩

end UsageBoard.Palette
