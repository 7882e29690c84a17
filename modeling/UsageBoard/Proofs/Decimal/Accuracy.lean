import UsageBoard.Proofs.Decimal.Powers

/-!
# How near rounded values are

A value that is not too small is rounded to a number that differs from it in the 53rd bit at most.  A smaller
one keeps fewer bits, and of half the least number nothing is left.

## Main statements

* `IsNearest.abs_sub_le`, `RoundsTo.exists_near`: the relative error of a value in the normal range.
* `exactValue_div_eq_zero_iff`: when a quotient is rounded to zero.
* `isNegative_div`: a quotient of positive numbers has no sign, whatever it is rounded to.
-/

namespace UsageBoard.Decimal

open Float.Model (Format UnpackedFloat)
open Float.Model.UnpackedFloat

variable {x y : Float} {a b v c : ℚ}

/-! ## Relative errors -/

/-- The most that one rounding changes a number, as a part of it. -/
def roundoff : ℚ := 1 / 2 ^ 53

theorem roundoff_bounds : 0 < roundoff ∧ roundoff ≤ 1 / 1000000 := by
  norm_num [roundoff]

theorem IsNearest.abs_sub_le (nearest : IsNearest v c) (normal : 2 ^ (-1022 : ℤ) ≤ v) :
    |c - v| ≤ v * roundoff := by
  have positive : 0 < v := lt_of_lt_of_le (by positivity) normal
  obtain ⟨s, least, most⟩ := exists_mem_Ico_zpow positive one_lt_two
  have low : -1074 ≤ s - 52 := by
    have passed : (2 : ℚ) ^ (-1022 : ℤ) < 2 ^ (s + 1) := normal.trans_lt most
    have := (zpow_lt_zpow_iff_right₀ one_lt_two).mp passed
    omega
  obtain ⟨r, double, near⟩ := exists_isDouble_near positive.le (s := s - 52)
    (by rwa [show 53 + (s - 52) = s + 1 by omega]) low
  calc |c - v| ≤ |r - v| := nearest.nearest r double
    _ ≤ 2 ^ (s - 52) / 2 := near
    _ = 2 ^ s / 2 ^ 53 := by
        rw [zpow_sub₀ two_ne_zero, zpow_ofNat]
        ring
    _ ≤ v / 2 ^ 53 := by gcongr
    _ = v * roundoff := by rw [roundoff, mul_one_div]

/-- A value in the range of normal numbers is changed by no more than the part that one rounding does. -/
theorem RoundsTo.exists_near (rounds : RoundsTo v x) (least : 2 ^ (-1022 : ℤ) ≤ v)
    (most : v ≤ 2 ^ (1023 : ℤ)) :
    ∃ c, exactValue x = some c ∧ v * (1 - roundoff) ≤ c ∧ c ≤ v * (1 + roundoff) := by
  have inside : (2 : ℚ) ^ (1023 : ℤ) < realEnd := by
    rw [realEnd, ← zpow_ofNat]
    exact zpow_lt_zpow_right₀ one_lt_two (by norm_num)
  obtain ⟨c, hc, nearest⟩ := rounds.exists_value (isDouble_zpow (by norm_num)) most inside
  obtain ⟨low, high⟩ := abs_le.mp (nearest.abs_sub_le least)
  refine ⟨c, hc, ?_, ?_⟩ <;> linarith

/-! ## Values that are too small -/

theorem Stands.roundedMantissa_eq_zero {em : ExtendedMantissa} (stands : Stands em v) (small : v ≤ 1 / 2) :
    em.roundedMantissa = 0 := by
  obtain ⟨mantissa, roundBit, stickyBit⟩ := em
  obtain ⟨least, -, sticky⟩ := stands
  dsimp only at least sticky
  have none : mantissa = 0 := by
    have below : (mantissa : ℚ) < 1 := by linarith [(half_bounds roundBit).1]
    exact Nat.lt_one_iff.mp (by exact_mod_cast below)
  subst none
  cases roundBit with
  | false => cases stickyBit <;> rfl
  | true =>
      -- a half is exact, and goes to the even mantissa
      have exact : stickyBit ≠ true := by
        rw [ne_eq, sticky, not_not]
        simp only [half, if_true, Nat.cast_zero, zero_add] at least ⊢
        exact le_antisymm least small
      rw [Bool.eq_false_of_not_eq_true exact]
      rfl

/-- Nothing is left of a value that is no greater than half the least number. -/
theorem roundWithAccuracy_of_small {m : ℕ} {e : ℤ} {accuracy : Accuracy}
    (stands : Stands (ExtendedMantissa.ofMantissaAndAccuracy m accuracy) v) (bits : 52 ≤ m.log2 ∨ e ≤ -1074)
    (small : v * 2 ^ e ≤ 2 ^ (-1075 : ℤ)) :
    roundWithAccuracy Format.binary64 .positive m e accuracy = .zero .positive := by
  have unit : (0 : ℚ) < 2 ^ e := by positivity
  have digits : (m.log2 : ℤ) + e ≤ -1074 := by
    rcases Nat.eq_zero_or_pos m with rfl | positive
    · simpa using bits
    · have least : (2 : ℚ) ^ m.log2 ≤ v := by
        have whole : (2 : ℚ) ^ m.log2 ≤ m := by exact_mod_cast Nat.log2_self_le positive.ne'
        have below := stands.least
        rw [mantissa_ofMantissaAndAccuracy] at below
        linarith [(half_bounds (ExtendedMantissa.ofMantissaAndAccuracy m accuracy).roundBit).1]
      have below : (2 : ℚ) ^ ((m.log2 : ℤ) + e) ≤ 2 ^ (-1075 : ℤ) := by
        rw [zpow_add₀ two_ne_zero, zpow_natCast]
        exact (mul_le_mul_of_nonneg_right least unit.le).trans small
      have := (zpow_le_zpow_iff_right₀ one_lt_two).mp below
      omega
  obtain ⟨n, hn⟩ : ∃ n : ℕ, n = (-1074 - e).toNat := ⟨_, rfl⟩
  have rounds := roundWithAccuracy_eq m e (-1074) accuracy n (by rw [hn]; congr 2; omega) (by omega)
  have half : v / 2 ^ n ≤ 1 / 2 := by
    have scaled : v * 2 ^ e = v / 2 ^ n * 2 ^ (-1074 : ℤ) := by
      rw [show (-1074 : ℤ) = e + n by omega, zpow_add₀ two_ne_zero, zpow_natCast]
      field_simp
    rw [scaled, show (-1075 : ℤ) = -1 + -1074 by rfl, zpow_add₀ two_ne_zero] at small
    have least : (0 : ℚ) < 2 ^ (-1074 : ℤ) := by positivity
    exact (le_of_mul_le_mul_right small least).trans_eq (by norm_num)
  have zero := (stands.shift n).roundedMantissa_eq_zero half
  dsimp only at rounds
  rw [rounds, zero, Nat.zero_div]
  rfl

theorem exists_stands_div_of_pos (hx : exactValue x = some a) (hy : exactValue y = some b) (ha : 0 < a)
    (hb : 0 < b) :
    ∃ (k : ℕ) (t : ℤ) (accuracy : Accuracy) (q : ℚ),
      x / y = .ofModel (.pack (roundWithAccuracy Format.binary64 .positive k t accuracy)) ∧
      Stands (ExtendedMantissa.ofMantissaAndAccuracy k accuracy) q ∧ (52 ≤ k.log2 ∨ t ≤ -1074) ∧
      q * 2 ^ t = a / b := by
  obtain ⟨-, -, rfl⟩ | ⟨m, e, positive, hu, rfl, -⟩ := unpack_of_exactValue hx ha.le
  · exact absurd ha (lt_irrefl _)
  obtain ⟨-, -, rfl⟩ | ⟨m', e', positive', hw, rfl, -⟩ := unpack_of_exactValue hy hb.le
  · exact absurd hb (lt_irrefl _)
  obtain ⟨k, t, accuracy, q, quotient, stands, bits, same⟩ := exists_stands_div e e' positive positive'
  refine ⟨k, t, accuracy, q, ?_, stands, bits, same⟩
  change Float.ofModel (.pack (div Format.binary64 x.toModel.unpack y.toModel.unpack)) = _
  rw [hu, hw, quotient]

theorem le_half_of_isNearest_zero (nearest : IsNearest v 0) (positive : 0 < v) : v ≤ 2 ^ (-1075 : ℤ) := by
  have least : IsDouble (2 ^ (-1074 : ℤ)) := isDouble_zpow le_rfl
  have halves : (2 : ℚ) ^ (-1074 : ℤ) = 2 * 2 ^ (-1075 : ℤ) := by
    rw [← zpow_one_add₀ two_ne_zero]
    rfl
  have near := nearest.nearest _ least
  rw [zero_sub, abs_neg, abs_of_pos positive] at near
  rcases le_total v (2 ^ (-1074 : ℤ)) with below | above
  · rw [abs_of_nonneg (sub_nonneg.mpr below)] at near
    linarith
  · exact absurd (nearest.le_of_le least above) (not_le.mpr (by positivity))

/-- What is not rounded to zero is no more than doubled. -/
theorem IsNearest.le_two_mul (nearest : IsNearest v c) (some_left : 2 ^ (-1075 : ℤ) < v) : c ≤ 2 * v := by
  have positive : 0 < v := lt_trans (by positivity) some_left
  obtain ⟨s, least, most⟩ := exists_mem_Ico_zpow positive one_lt_two
  have low : -1075 < s + 1 := (zpow_lt_zpow_iff_right₀ one_lt_two).mp (some_left.trans most)
  calc c ≤ 2 ^ (s + 1) := nearest.ge_of_ge (isDouble_zpow (by omega)) most.le
    _ ≤ 2 * v := by
        rw [zpow_add_one₀ two_ne_zero]
        linarith

/-- Half the least number is rounded to zero, and whatever is greater is not. -/
theorem exactValue_div_eq_zero_iff (hx : exactValue x = some a) (hy : exactValue y = some b) (ha : 0 < a)
    (hb : 0 < b) : exactValue (x / y) = some 0 ↔ a / b ≤ 2 ^ (-1075 : ℤ) := by
  constructor
  · intro zero
    obtain ⟨c, nearest, result⟩ := roundsTo_div hx hy ha.le hb
    rw [zero] at result
    split at result
    · rw [← Option.some.inj result] at nearest
      exact le_half_of_isNearest_zero nearest (div_pos ha hb)
    · cases result.2
  · intro small
    obtain ⟨k, t, accuracy, q, quotient, stands, bits, same⟩ := exists_stands_div_of_pos hx hy ha hb
    rw [quotient, roundWithAccuracy_of_small stands bits (same ▸ small)]
    rfl

/-! ## Signs -/

/-- A number has a plus sign. -/
def HasPlus : UnpackedFloat → Prop
  | .zero .positive => True
  | .infinity .positive => True
  | .finite .positive _ _ _ => True
  | _ => False

theorem hasPlus_ofUnits (m : ℕ) (e : ℤ) : HasPlus (ofUnits m e) := by
  unfold ofUnits
  split <;> trivial

theorem hasPlus_unpack_pack {u : UnpackedFloat} (plus : HasPlus u) (canonical : IsCanonical u) :
    HasPlus (unpack Format.binary64 (pack Format.binary64 u)) := by
  cases u with
  | notANumber => cases plus
  | infinity sign => cases sign <;> trivial
  | zero sign => cases sign <;> trivial
  | finite sign m e positive =>
      rcases le_or_gt e 971 with high | large
      · rwa [unpack_pack positive canonical high]
      · rw [unpack_pack_of_large positive large]
        cases sign <;> trivial

theorem isNegative_of_hasPlus (plus : HasPlus x.toModel.unpack) : isNegative x = false := by
  rw [isNegative]
  cases bit : x.toBits >>> 63 == 1 with
  | false => rw [Bool.and_false]
  | true =>
      exfalso
      rw [unpack_eq, bit, ofParts] at plus
      split at plus
      · split at plus <;> exact plus
      · split at plus
        · split at plus <;> exact plus
        · exact plus

/-- A quotient of positive numbers has no sign, whatever it is rounded to. -/
theorem isNegative_div (hx : exactValue x = some a) (hy : exactValue y = some b) (ha : 0 < a) (hb : 0 < b) :
    isNegative (x / y) = false := by
  obtain ⟨k, t, accuracy, q, quotient, stands, bits, -⟩ := exists_stands_div_of_pos hx hy ha hb
  obtain ⟨c, -, -, canonical⟩ := roundWithAccuracy_nearest stands bits
  have units := roundWithAccuracy_eq k t _ accuracy _ rfl rfl
  dsimp only at units
  apply isNegative_of_hasPlus
  rw [quotient]
  refine hasPlus_unpack_pack ?_ canonical
  rw [units]
  exact hasPlus_ofUnits _ _

end UsageBoard.Decimal
