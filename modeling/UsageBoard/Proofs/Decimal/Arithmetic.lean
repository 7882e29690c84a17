import UsageBoard.Proofs.Decimal.Exact

/-!
# Products and quotients

Each operation computes a mantissa with bits enough to round it, and rounds it once, so that its result is
the number nearest to the exact one or, if that is out of range, infinite.

## Main statements

* `roundsTo_mul`, `roundsTo_div`: what a product and a quotient of numbers are rounded from.
* `roundsTo_ofScientific`, `roundsTo_ofScientific_fraction`: a decimal is rounded once.
* `roundsTo_nearest`: a decimal without a fraction is rounded once, even where it takes a product to read it.
* `exactValue_ofInt`: an integer of 53 bits is read as itself.
-/

namespace UsageBoard.Decimal

open Float.Model (Format UnpackedFloat)
open Float.Model.UnpackedFloat

/-! ## Rounded values -/

theorem isDouble_natCast {n : ℕ} (bits : n ≤ 2 ^ 53) : IsDouble n :=
  ⟨n, 0, bits, by decide, by rw [zpow_zero, mul_one]⟩

theorem isDouble_zero : IsDouble 0 := by
  simpa using isDouble_natCast (Nat.zero_le (2 ^ 53))

theorem IsDouble.nonneg {r : ℚ} : IsDouble r → 0 ≤ r := by
  rintro ⟨k, t, -, -, rfl⟩
  positivity

theorem IsDouble.isNearest {r : ℚ} (double : IsDouble r) : IsNearest r r where
  double := double
  nearest _ _ := by
    rw [sub_self, abs_zero]
    exact abs_nonneg _

/-- The first value above those of finite numbers. -/
@[irreducible]
def realEnd : ℚ := 2 ^ 1024

theorem realEnd_pos : 0 < realEnd := by
  rw [realEnd]
  positivity

/-- A number is what a value is rounded to: the nearest number, and infinite if that is out of range. -/
def RoundsTo (v : ℚ) (x : Float) : Prop :=
  ∃ c, IsNearest v c ∧ if c < realEnd then exactValue x = some c else x.isInf ∧ exactValue x = none

theorem exactValue_ofModel_pack (u : UnpackedFloat) :
    exactValue (.ofModel (.pack u)) = unpackedValue (unpack Format.binary64 (pack Format.binary64 u)) := rfl

theorem isInf_ofModel_pack (u : UnpackedFloat) :
    (Float.ofModel (.pack u)).isInf = (unpack Format.binary64 (pack Format.binary64 u)).isInf := rfl

theorem roundsTo_pack {u : UnpackedFloat} {v c : ℚ} (nearest : IsNearest v c)
    (hvalue : unpackedValue u = some c) (canonical : IsCanonical u) :
    RoundsTo v (.ofModel (.pack u)) := by
  refine ⟨c, nearest, ?_⟩
  have nonneg := nearest.double.nonneg
  rw [exactValue_ofModel_pack, isInf_ofModel_pack]
  cases u with
  | notANumber => cases hvalue
  | infinity sign => cases hvalue
  | zero sign =>
      obtain rfl : 0 = c := Option.some.inj hvalue
      rw [if_pos realEnd_pos]
      cases sign <;> rfl
  | finite sign m e positive =>
      have size : 0 < (m : ℚ) * 2 ^ e := by positivity
      have hc : c = m * 2 ^ e := by
        cases sign with
        | positive => exact (Option.some.inj hvalue).symm
        | negative =>
            have below := Option.some.inj (unpackedValue_negative.symm.trans hvalue)
            linarith
      have bits : (m : ℚ) < 2 ^ 53 := by exact_mod_cast canonical.1
      rcases le_or_gt e 971 with high | large
      · have small : c < realEnd := by
          calc c < 2 ^ 53 * 2 ^ e := by rw [hc]; gcongr
            _ ≤ 2 ^ 53 * 2 ^ (971 : ℤ) := by gcongr; norm_num
            _ = realEnd := by rw [zpow_ofNat, ← pow_add, realEnd]
        rw [if_pos small, unpack_pack positive canonical high, hvalue]
      · have long : (2 : ℚ) ^ 52 ≤ m := by
          exact_mod_cast canonical.2.2.resolve_left (by omega)
        have great : ¬c < realEnd := by
          rw [not_lt]
          calc realEnd = 2 ^ 52 * 2 ^ (972 : ℤ) := by rw [zpow_ofNat, ← pow_add, realEnd]
            _ ≤ 2 ^ 52 * 2 ^ e := by gcongr; norm_num; omega
            _ ≤ c := by rw [hc]; gcongr
        rw [if_neg great, unpack_pack_of_large positive large]
        exact ⟨rfl, rfl⟩

theorem roundsTo_zero (sign : Sign) : RoundsTo 0 (.ofModel (.pack (.zero sign))) :=
  roundsTo_pack isDouble_zero.isNearest rfl trivial

/-! ## Operations -/

variable {x y : Float} {a b : ℚ}

/-- A number has the sign of its value. -/
theorem sign_cases (hx : exactValue x = some a) :
    (∃ sign, x.toModel.unpack = .zero sign ∧ a = 0) ∨
      (∃ m e positive, x.toModel.unpack = .finite .positive m e positive ∧ a = m * 2 ^ e ∧ 0 < a) ∨
      ∃ m e positive, x.toModel.unpack = .finite .negative m e positive ∧ a < 0 := by
  rw [exactValue] at hx
  cases hu : x.toModel.unpack with
  | notANumber => simp [hu, unpackedValue] at hx
  | infinity sign => simp [hu, unpackedValue] at hx
  | zero sign =>
      rw [hu] at hx
      exact .inl ⟨sign, rfl, (Option.some.inj hx).symm⟩
  | finite sign m e positive =>
      rw [hu] at hx
      have size : 0 < (m : ℚ) * 2 ^ e := by positivity
      cases sign with
      | positive =>
          rw [unpackedValue_positive, Option.some.injEq] at hx
          exact .inr (.inl ⟨m, e, positive, rfl, hx.symm, hx ▸ size⟩)
      | negative =>
          rw [unpackedValue_negative, Option.some.injEq] at hx
          exact .inr (.inr ⟨m, e, positive, rfl, by linarith⟩)

/-- What a number with a nonnegative value is unpacked to. -/
theorem unpack_of_exactValue (hx : exactValue x = some a) (nonneg : 0 ≤ a) :
    (∃ sign, x.toModel.unpack = .zero sign ∧ a = 0) ∨
      ∃ m e positive, x.toModel.unpack = .finite .positive m e positive ∧ a = m * 2 ^ e ∧
        IsCanonical (.finite .positive m e positive) := by
  rcases sign_cases hx with zero | ⟨m, e, positive, hu, value, -⟩ | ⟨m, e, positive, hu, below⟩
  · exact .inl zero
  · exact .inr ⟨m, e, positive, hu, value, (isCanonical_unpack hu).1⟩
  · exact absurd nonneg below.not_ge

/-- A product is rounded once. -/
theorem roundsTo_mul (hx : exactValue x = some a) (hy : exactValue y = some b) (ha : 0 ≤ a) (hb : 0 ≤ b) :
    RoundsTo (a * b) (x * y) := by
  change RoundsTo (a * b) (.ofModel (.pack (mul Format.binary64 x.toModel.unpack y.toModel.unpack)))
  obtain ⟨sign, hu, rfl⟩ | ⟨m, e, positive, hu, rfl, canonical⟩ := unpack_of_exactValue hx ha <;>
    obtain ⟨sign', hw, rfl⟩ | ⟨m', e', positive', hw, rfl, canonical'⟩ := unpack_of_exactValue hy hb <;>
    rw [hu, hw]
  · rw [zero_mul]
    exact roundsTo_zero _
  · rw [zero_mul]
    exact roundsTo_zero _
  · rw [mul_zero]
    exact roundsTo_zero _
  · have bits : 52 ≤ (m * m').log2 ∨ e + e' ≤ -1074 := by
      have nonzero : m * m' ≠ 0 := by positivity
      rw [Nat.le_log2 nonzero]
      rcases canonical.2.2 with low | long
      · rcases canonical'.2.2 with low' | long'
        · exact .inr (by omega)
        · exact .inl (long'.trans (Nat.le_mul_of_pos_left _ positive))
      · exact .inl (long.trans (Nat.le_mul_of_pos_right _ positive'))
    obtain ⟨c, nearest, hvalue, canonical⟩ := roundWithAccuracy_nearest (stands_exact (m * m')) bits
    refine roundsTo_pack (c := c) ?_ hvalue canonical
    rw [zpow_add₀ two_ne_zero, Nat.cast_mul] at nearest
    rwa [mul_mul_mul_comm]

/-- A quotient of mantissas is computed with bits enough to round it. -/
theorem divCore_bits {m m' : ℕ} (e e' : ℤ) (positive : 0 < m) (positive' : 0 < m') :
    ∃ (n : ℕ) (t : ℤ), t + n = e - e' ∧ (52 ≤ (m * 2 ^ n / m').log2 ∨ t ≤ -1074) ∧
      divCore Format.binary64 m e m' e' =
        (m * 2 ^ n / m', t, accuracyOfFraction (m * 2 ^ n % m') m') := by
  obtain ⟨t, ht⟩ : ∃ t, t = min (e - e') (max (m.log2 + e - (m'.log2 + e') - 53) (-1074)) := ⟨_, rfl⟩
  have target : min (e - e') (Format.binary64.targetExponent
      (Float.Model.totalExponent m e - Float.Model.totalExponent m' e')) = t := by
    rw [targetExponent_eq, ht, Float.Model.totalExponent, Float.Model.totalExponent]
    congr 2
    ring
  refine ⟨(e - e' - t).toNat, t, by omega, ?_, ?_⟩
  · rcases le_or_gt t (-1074) with low | high
    · exact .inr low
    · refine .inl ?_
      have shift : 53 + m'.log2 ≤ m.log2 + (e - e' - t).toNat := by omega
      have enough : 2 ^ 52 * m' ≤ m * 2 ^ (e - e' - t).toNat := by
        calc 2 ^ 52 * m' ≤ 2 ^ 52 * 2 ^ (m'.log2 + 1) := Nat.mul_le_mul_left _ Nat.lt_log2_self.le
          _ = 2 ^ (53 + m'.log2) := by ring
          _ ≤ 2 ^ (m.log2 + (e - e' - t).toNat) := Nat.pow_le_pow_right two_pos shift
          _ = 2 ^ m.log2 * 2 ^ (e - e' - t).toNat := pow_add _ _ _
          _ ≤ m * 2 ^ (e - e' - t).toNat := Nat.mul_le_mul_right _ (Nat.log2_self_le positive.ne')
      have quotient := (Nat.le_div_iff_mul_le positive').mpr enough
      exact (Nat.le_log2 (by omega)).mpr quotient
  · simp only [divCore, target, Nat.shiftLeft_eq]

/-- What a quotient of numbers is rounded from, which need not be in the form that they are packed from. -/
theorem exists_stands_div {m m' : ℕ} (e e' : ℤ) (positive : 0 < m) (positive' : 0 < m') :
    ∃ (k : ℕ) (t : ℤ) (accuracy : Accuracy) (q : ℚ),
      div Format.binary64 (.finite .positive m e positive) (.finite .positive m' e' positive') =
        roundWithAccuracy Format.binary64 .positive k t accuracy ∧
      Stands (ExtendedMantissa.ofMantissaAndAccuracy k accuracy) q ∧ (52 ≤ k.log2 ∨ t ≤ -1074) ∧
      q * 2 ^ t = m * 2 ^ e / (m' * 2 ^ e') := by
  obtain ⟨n, t, exponents, bits, core⟩ := divCore_bits e e' positive positive'
  refine ⟨_, t, _, _, ?_, stands_fraction (m := m * 2 ^ n / m') (Nat.mod_lt (m * 2 ^ n) positive'), bits, ?_⟩
  · simp only [div, core]
    rfl
  · have size : (m' : ℚ) ≠ 0 := by positivity
    have whole : ((m * 2 ^ n / m' : ℕ) + (m * 2 ^ n % m' : ℕ) / m' : ℚ) = m * 2 ^ n / m' := by
      rw [eq_div_iff size, add_mul, div_mul_cancel₀ _ size]
      exact_mod_cast Nat.div_add_mod' (m * 2 ^ n) m'
    have units : (2 : ℚ) ^ n * 2 ^ t = 2 ^ e / 2 ^ e' := by
      rw [← zpow_natCast, ← zpow_add₀ two_ne_zero, add_comm, exponents, zpow_sub₀ two_ne_zero]
    rw [whole, div_mul_eq_mul_div, mul_assoc, units, mul_div_mul_comm, mul_div_right_comm]

theorem roundsTo_quotient {m m' : ℕ} (e e' : ℤ) (positive : 0 < m) (positive' : 0 < m') :
    RoundsTo (m * 2 ^ e / (m' * 2 ^ e'))
      (.ofModel (.pack
        (div Format.binary64 (.finite .positive m e positive) (.finite .positive m' e' positive')))) := by
  obtain ⟨k, t, accuracy, q, quotient, stands, bits, same⟩ := exists_stands_div e e' positive positive'
  obtain ⟨c, nearest, hvalue, canonical⟩ := roundWithAccuracy_nearest stands bits
  rw [quotient]
  exact roundsTo_pack (same ▸ nearest) hvalue canonical

/-- A quotient is rounded once. -/
theorem roundsTo_div (hx : exactValue x = some a) (hy : exactValue y = some b) (ha : 0 ≤ a) (hb : 0 < b) :
    RoundsTo (a / b) (x / y) := by
  change RoundsTo (a / b) (.ofModel (.pack (div Format.binary64 x.toModel.unpack y.toModel.unpack)))
  obtain ⟨sign', -, rfl⟩ | ⟨m', e', positive', hw, rfl, canonical'⟩ := unpack_of_exactValue hy hb.le
  · exact absurd hb (lt_irrefl _)
  rw [hw]
  obtain ⟨sign, hu, rfl⟩ | ⟨m, e, positive, hu, rfl, canonical⟩ := unpack_of_exactValue hx ha
  · rw [hu, zero_div]
    exact roundsTo_zero _
  · rw [hu]
    exact roundsTo_quotient e e' positive positive'

theorem exactValue_neg (x : Float) : exactValue (-x) = (exactValue x).map (-·) := by
  change unpackedValue (unpack Format.binary64 (pack Format.binary64 x.toModel.unpack.neg)) =
    (unpackedValue x.toModel.unpack).map (-·)
  cases hu : x.toModel.unpack with
  | notANumber => rfl
  | infinity sign => cases sign <;> rfl
  | zero sign =>
      cases sign <;> exact congrArg some neg_zero.symm
  | finite sign m e positive =>
      obtain ⟨canonical, high⟩ := isCanonical_unpack hu
      have negated : IsCanonical (.finite (-sign) m e positive) := canonical
      rw [neg, unpack_pack positive negated high]
      cases sign with
      | negative =>
          rw [unpackedValue_negative, Option.map_some, neg_neg]
          exact unpackedValue_positive
      | positive =>
          rw [unpackedValue_positive, Option.map_some]
          exact unpackedValue_negative

theorem exists_exactValue (finite : x.isFinite = true) : ∃ a, exactValue x = some a := by
  change x.toModel.unpack.isFinite = true at finite
  rw [exactValue]
  cases hu : x.toModel.unpack with
  | notANumber => simp [hu, isFinite] at finite
  | infinity sign => simp [hu, isFinite] at finite
  | zero sign => exact ⟨_, rfl⟩
  | finite sign m e positive => exact ⟨_, rfl⟩

theorem eq_zero_iff (hx : exactValue x = some a) : (x == 0.0) = true ↔ a = 0 := by
  have zero : (0.0 : Float).toModel.unpack = .zero .positive := rfl
  change UnpackedFloat.beq x.toModel.unpack (0.0 : Float).toModel.unpack = true ↔ a = 0
  rw [zero]
  rcases sign_cases hx with ⟨sign, hu, rfl⟩ | ⟨m, e, positive, hu, -, above⟩ |
    ⟨m, e, positive, hu, below⟩ <;> rw [hu]
  · exact iff_of_true rfl rfl
  · exact iff_of_false Bool.false_ne_true above.ne'
  · exact iff_of_false Bool.false_ne_true below.ne

theorem pos_iff (hx : exactValue x = some a) : 0.0 < x ↔ 0 < a := by
  have order : (0.0 : Float) < x ↔ UnpackedFloat.lt (.zero .positive) x.toModel.unpack = true :=
    decide_eq_true_iff
  rw [order]
  rcases sign_cases hx with ⟨sign, hu, rfl⟩ | ⟨m, e, positive, hu, -, above⟩ |
    ⟨m, e, positive, hu, below⟩ <;> rw [hu]
  · exact iff_of_false Bool.false_ne_true (lt_irrefl _)
  · exact iff_of_true rfl above
  · exact iff_of_false Bool.false_ne_true below.not_gt

/-! ## Decimals -/

theorem RoundsTo.eq_of_double {v : ℚ} (rounds : RoundsTo v x) (double : IsDouble v) (small : v < realEnd) :
    exactValue x = some v := by
  obtain ⟨c, nearest, result⟩ := rounds
  obtain rfl := nearest.eq_of_double double
  rwa [if_pos small] at result

theorem natCast_lt_realEnd {n : ℕ} (word : n ≤ 2 ^ 64) : (n : ℚ) < realEnd := by
  calc (n : ℚ) ≤ 2 ^ 64 := by exact_mod_cast word
    _ < 2 ^ 1024 := pow_lt_pow_right₀ one_lt_two (by norm_num)
    _ = realEnd := by rw [realEnd]

theorem exactValue_toFloat {n : ℕ} (bits : n < 2 ^ 53) : exactValue n.toUInt64.toFloat = some (n : ℚ) := by
  have word : n.toUInt64.toNat = n := Nat.mod_eq_of_lt (by omega)
  refine RoundsTo.eq_of_double ?_ (isDouble_natCast bits.le) (natCast_lt_realEnd (by omega))
  change RoundsTo n (.ofModel (.pack (normalize Format.binary64 (n.toUInt64.toNat : ℤ) 0 .positive)))
  rw [word]
  rcases Nat.eq_zero_or_pos n with rfl | positive
  · exact roundsTo_zero .positive
  · have digits : n.log2 ≤ 52 := Nat.lt_succ_iff.mp ((Nat.log2_lt positive.ne').mpr bits)
    have order : compare (n : ℤ) 0 = .gt := Int.compare_eq_gt.mpr (by omega)
    have target : (0 - Format.binary64.targetExponent (Float.Model.totalExponent n 0)).toNat = 52 - n.log2 := by
      rw [targetExponent_totalExponent]
      omega
    have long : 2 ^ 52 ≤ n * 2 ^ (52 - n.log2) := by
      calc 2 ^ 52 = 2 ^ n.log2 * 2 ^ (52 - n.log2) := by rw [← pow_add, show n.log2 + (52 - n.log2) = 52 by omega]
        _ ≤ n * 2 ^ (52 - n.log2) := Nat.mul_le_mul_right _ (Nat.log2_self_le positive.ne')
    obtain ⟨c, nearest, hvalue, canonical⟩ := roundWithAccuracy_nearest (e := 0 - (52 - n.log2 : ℕ))
      (stands_exact (n * 2 ^ (52 - n.log2))) (.inl ((Nat.le_log2 (by omega)).mpr long))
    simp only [UnpackedFloat.normalize, order, Int.toNat_natCast, UnpackedFloat.round, decreaseExponent, target,
      Nat.shiftLeft_eq]
    refine roundsTo_pack (c := c) ?_ hvalue canonical
    have same : ((n * 2 ^ (52 - n.log2) : ℕ) : ℚ) * 2 ^ (0 - ((52 - n.log2 : ℕ) : ℤ)) = n := by
      rw [zero_sub, zpow_neg, zpow_natCast, Nat.cast_mul, Nat.cast_pow, Nat.cast_two]
      exact mul_inv_cancel_right₀ (by positivity) _
    rwa [same] at nearest

theorem whole?_powerOfTen : ∀ k : Fin Float.exactlyRepresentablePowersOfTen.size,
    whole? Float.exactlyRepresentablePowersOfTen[k.val] = some (10 ^ k.val) := by
  decide +kernel

theorem exactValue_powerOfTen {k : ℕ} (inside : k < Float.exactlyRepresentablePowersOfTen.size) :
    exactValue Float.exactlyRepresentablePowersOfTen[k] = some (10 ^ k) := by
  rw [whole?_eq_some_iff.mp (whole?_powerOfTen ⟨k, inside⟩)]
  push_cast
  rfl

/-- A decimal without a fraction is rounded once. -/
theorem roundsTo_ofScientific (m : ℕ) {k : ℕ} (high : k ≤ 400) :
    RoundsTo (m * 10 ^ k) (Float.ofScientific m false k) := by
  rw [Float.ofScientific]
  split
  · rename_i fast
    exact roundsTo_mul (exactValue_toFloat fast.1) (exactValue_powerOfTen _) (by positivity) (by positivity)
  · change RoundsTo _ (.ofModel (.pack (ofScientific Format.binary64 m (k : ℤ))))
    rw [ofScientific]
    split
    · rename_i zero
      rw [zero, Nat.cast_zero, zero_mul]
      exact roundsTo_zero _
    · rename_i nonzero
      rw [if_neg (by norm_num; omega), if_neg (by norm_num; omega), if_pos (by omega)]
      have long : 2 ^ 52 ≤ m <<< 53 * 10 ^ k := by
        have : m * 2 ^ 53 ≤ m * 2 ^ 53 * 10 ^ k := Nat.le_mul_of_pos_right _ (by positivity)
        rw [Nat.shiftLeft_eq]
        omega
      obtain ⟨c, nearest, hvalue, canonical⟩ := roundWithAccuracy_nearest (e := -53 + 0)
        (stands_exact (m <<< 53 * 10 ^ k)) (.inl ((Nat.le_log2 (by omega)).mpr long))
      refine roundsTo_pack (c := c) ?_ hvalue canonical
      have same : ((m <<< 53 * 10 ^ k : ℕ) : ℚ) * 2 ^ (-53 + 0 : ℤ) = m * 10 ^ k := by
        rw [Nat.shiftLeft_eq]
        push_cast
        norm_num
        ring
      rwa [same] at nearest

/-- A decimal with a fraction is rounded once. -/
theorem roundsTo_ofScientific_fraction (m : ℕ) {k : ℕ} (low : 0 < k) (high : k ≤ 400) :
    RoundsTo (m / 10 ^ k) (Float.ofScientific m true k) := by
  rw [Float.ofScientific]
  split
  · rename_i fast
    exact roundsTo_div (exactValue_toFloat fast.1) (exactValue_powerOfTen _) (by positivity) (by positivity)
  · change RoundsTo _ (.ofModel (.pack (ofScientific Format.binary64 m (Int.negOfNat k))))
    have exponent : Int.negOfNat k = -k := Int.negOfNat_eq
    rw [exponent, ofScientific]
    split
    · rename_i zero
      rw [zero, Nat.cast_zero, zero_div]
      exact roundsTo_zero _
    · rename_i nonzero
      rw [if_neg (by norm_num), if_neg (by norm_num; omega), if_neg (by omega)]
      have power : ((10 ^ (-(-(k : ℤ))).toNat : ℕ) : ℚ) = 10 ^ k := by
        rw [neg_neg, Int.toNat_natCast, Nat.cast_pow, Nat.cast_ofNat]
      have divisor : 0 < 10 ^ (-(-(k : ℤ))).toNat := by positivity
      have rounds := roundsTo_quotient 0 0 (Nat.pos_of_ne_zero nonzero) divisor
      rwa [power, zpow_zero, mul_one, mul_one] at rounds

theorem ofInt_natCast (n : ℕ) : ofInt n = nearest n 0 := by
  rw [ofInt, decide_eq_false (by omega), Int.natAbs_natCast]
  rfl

theorem roundsTo_nearest {m k : ℕ} (high : k ≤ 308) (size : m < 2 ^ 64) :
    RoundsTo (m * 10 ^ k) (nearest m k) := by
  have zero : exactValue 0.0 = some ((0 : ℤ) : ℚ) := whole?_eq_some_iff.mp (by decide +kernel)
  rw [nearest]
  split
  · rename_i none
    rw [none, Nat.cast_zero, zero_mul]
    refine ⟨0, isDouble_zero.isNearest, ?_⟩
    rw [if_pos realEnd_pos, zero, Int.cast_zero]
  · rename_i nonzero
    have digits : m.log2 < 64 := (Nat.log2_lt nonzero).mpr size
    rw [if_neg (by omega), if_neg (by omega), decide_eq_false (by omega), Int.natAbs_natCast]
    exact roundsTo_ofScientific m (by omega)

theorem roundsTo_ofInt {n : ℕ} (word : n < 2 ^ 64) : RoundsTo n (ofInt n) := by
  have rounds := roundsTo_nearest (Nat.zero_le 308) word
  rwa [pow_zero, mul_one, Nat.cast_zero, ← ofInt_natCast] at rounds

theorem exactValue_ofInt {n : ℕ} (bits : n < 2 ^ 53) : exactValue (ofInt n) = some (n : ℚ) :=
  (roundsTo_ofInt (by omega)).eq_of_double (isDouble_natCast bits.le) (natCast_lt_realEnd (by omega))

end UsageBoard.Decimal
