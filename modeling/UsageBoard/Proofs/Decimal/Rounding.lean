import Mathlib

/-!
# Rounding to the nearest

A product or a quotient of floating point numbers is computed as a whole number with two bits for what
follows it, and rounded once.

## Main statements

* `Stands.shift`: what the bits say is kept by every shift.
* `roundWithAccuracy_nearest`: the result is a number of 53 bits that is nearest to the exact value.
-/

namespace UsageBoard.Decimal

open Float.Model Float.Model.UnpackedFloat

/-! ## Nearest numbers -/

/-- What a floating point number can be, but for the limit of its exponent. -/
def IsDouble (r : ℚ) : Prop := ∃ (k : ℕ) (t : ℤ), k ≤ 2 ^ 53 ∧ -1074 ≤ t ∧ r = k * 2 ^ t

/-- No other number of 53 bits is nearer to a value. -/
structure IsNearest (v c : ℚ) : Prop where
  double : IsDouble c
  nearest : ∀ r, IsDouble r → |c - v| ≤ |r - v|

namespace IsNearest

variable {v c r : ℚ}

theorem le_of_le (h : IsNearest v c) (double : IsDouble r) (le : r ≤ v) : r ≤ c := by
  by_contra lt
  have near := h.nearest r double
  rw [abs_of_nonpos (by linarith), abs_of_nonpos (by linarith)] at near
  linarith

theorem ge_of_ge (h : IsNearest v c) (double : IsDouble r) (ge : v ≤ r) : c ≤ r := by
  by_contra gt
  have near := h.nearest r double
  rw [abs_of_nonneg (by linarith), abs_of_nonneg (by linarith)] at near
  linarith

theorem eq_of_double (h : IsNearest v c) (double : IsDouble v) : c = v :=
  le_antisymm (h.ge_of_ge double le_rfl) (h.le_of_le double le_rfl)

end IsNearest

/-- A whole number of units is nearest if it is off by half a unit at most, and if the numbers with smaller
units are no nearer. -/
theorem isNearest_of_units {k : ℕ} {t : ℤ} {v : ℚ} (bits : k ≤ 2 ^ 53) (low : -1074 ≤ t)
    (near : |(k : ℚ) * 2 ^ t - v| ≤ 2 ^ t / 2) (full : t = -1074 ∨ (2 : ℚ) ^ 52 * 2 ^ t ≤ v) :
    IsNearest v (k * 2 ^ t) := by
  have unit : (0 : ℚ) < 2 ^ t := by positivity
  have multiple (j : ℕ) : |(k : ℚ) * 2 ^ t - v| ≤ |(j : ℚ) * 2 ^ t - v| := by
    rcases eq_or_ne j k with rfl | other
    · exact le_rfl
    · have apart : (1 : ℚ) ≤ |(j : ℚ) - k| := by
        have : (1 : ℤ) ≤ |(j : ℤ) - k| := Int.one_le_abs (by omega)
        exact_mod_cast this
      have far : (2 : ℚ) ^ t ≤ |(j : ℚ) * 2 ^ t - k * 2 ^ t| := by
        rw [← sub_mul, abs_mul, abs_of_pos unit]
        exact le_mul_of_one_le_left unit.le apart
      have detour := abs_sub_le ((j : ℚ) * 2 ^ t) v (k * 2 ^ t)
      rw [abs_sub_comm v] at detour
      linarith
  refine ⟨⟨k, t, bits, low, rfl⟩, ?_⟩
  rintro r ⟨j, s, small, lowest, rfl⟩
  rcases le_or_gt t s with coarse | fine
  · have whole : (j : ℚ) * 2 ^ s = (j * 2 ^ (s - t).toNat : ℕ) * 2 ^ t := by
      push_cast
      rw [mul_assoc, ← zpow_natCast, ← zpow_add₀ two_ne_zero]
      congr 2
      omega
    exact whole ▸ multiple _
  · -- a number with smaller units is no greater than `2 ^ 52` units
    have above := full.resolve_left (by omega)
    have below : (j : ℚ) * 2 ^ s ≤ 2 ^ 52 * 2 ^ t := by
      calc (j : ℚ) * 2 ^ s ≤ 2 ^ 53 * 2 ^ (t - 1) := by
            gcongr
            · exact_mod_cast small
            · norm_num
            · omega
        _ = 2 ^ 52 * 2 ^ t := by
            rw [zpow_sub₀ two_ne_zero]
            ring
    have least := multiple (2 ^ 52)
    rw [Nat.cast_pow, Nat.cast_ofNat] at least
    rw [abs_of_nonpos (by linarith : (2 : ℚ) ^ 52 * 2 ^ t - v ≤ 0)] at least
    rw [abs_of_nonpos (by linarith : (j : ℚ) * 2 ^ s - v ≤ 0)]
    linarith

/-! ## Residual bits -/

/-- What the first bit after a mantissa adds, in units of its last place. -/
def half (bit : Bool) : ℚ := if bit then 1 / 2 else 0

theorem half_bounds (bit : Bool) : 0 ≤ half bit ∧ half bit ≤ 1 / 2 := by
  cases bit <;> norm_num [half]

/-- A mantissa with its residual bits stands for an exact number of units: the round bit is the next one, and
the sticky bit tells whether there is more. -/
structure Stands (em : ExtendedMantissa) (x : ℚ) : Prop where
  least : em.mantissa + half em.roundBit ≤ x
  most : x < em.mantissa + half em.roundBit + 1 / 2
  sticky : em.stickyBit = true ↔ em.mantissa + half em.roundBit ≠ x

variable {em : ExtendedMantissa} {x : ℚ} {m : ℕ} {accuracy : Accuracy}

theorem stands_exact (m : ℕ) : Stands (ExtendedMantissa.ofMantissaAndAccuracy m .exact) m := by
  constructor <;> simp [ExtendedMantissa.ofMantissaAndAccuracy, half]

theorem stands_fraction {m r d : ℕ} (lt : r < d) :
    Stands (ExtendedMantissa.ofMantissaAndAccuracy m (accuracyOfFraction r d)) (m + r / d) := by
  have positive : (0 : ℚ) < d := by exact_mod_cast Nat.zero_lt_of_lt lt
  have below : (r / d : ℚ) < 1 := (div_lt_one positive).mpr (by exact_mod_cast lt)
  unfold accuracyOfFraction
  split
  · rename_i none_left
    rw [none_left, Nat.cast_zero, zero_div, add_zero]
    exact stands_exact m
  · rename_i some_left
    have more : (0 : ℚ) < r / d := by
      have : (0 : ℚ) < r := by exact_mod_cast Nat.pos_of_ne_zero some_left
      positivity
    cases order : compare (2 * r) d with
    | lt =>
        have less : (r / d : ℚ) < 1 / 2 := by
          rw [div_lt_div_iff₀ positive two_pos]
          exact_mod_cast (by have := Nat.compare_eq_lt.mp order; omega : r * 2 < 1 * d)
        refine ⟨?_, ?_, iff_of_true rfl ?_⟩ <;>
          simp only [ExtendedMantissa.ofMantissaAndAccuracy, half, Bool.false_eq_true, if_false, add_zero]
        · linarith
        · linarith
        · exact (by linarith : (m : ℚ) < m + r / d).ne
    | eq =>
        have same : (r / d : ℚ) = 1 / 2 := by
          rw [div_eq_div_iff positive.ne' two_ne_zero]
          exact_mod_cast (by have := Nat.compare_eq_eq.mp order; omega : r * 2 = 1 * d)
        constructor <;> simp [ExtendedMantissa.ofMantissaAndAccuracy, half, same]
    | gt =>
        have greater : (1 / 2 : ℚ) < r / d := by
          rw [div_lt_div_iff₀ two_pos positive]
          exact_mod_cast (by have := Nat.compare_eq_gt.mp order; omega : 1 * d < r * 2)
        refine ⟨?_, ?_, iff_of_true rfl ?_⟩ <;> simp only [ExtendedMantissa.ofMantissaAndAccuracy, half, if_true]
        · linarith
        · linarith
        · exact (by linarith : (m : ℚ) + 1 / 2 < m + r / d).ne

theorem Stands.shiftRightOne (stands : Stands em x) : Stands em.shiftRightOne (x / 2) := by
  obtain ⟨least, most, sticky⟩ := stands
  have halves : (em.mantissa : ℚ) / 2 = (em.mantissa / 2 : ℕ) + half (em.mantissa % 2 != 0) := by
    have whole : (em.mantissa : ℚ) = 2 * (em.mantissa / 2 : ℕ) + (em.mantissa % 2 : ℕ) := by
      exact_mod_cast (Nat.div_add_mod em.mantissa 2).symm
    rcases Nat.mod_two_eq_zero_or_one em.mantissa with last | last
    · simp [half, whole, last]
    · simp [half, whole, last]
      linarith
  obtain ⟨atLeast, atMost⟩ := half_bounds em.roundBit
  have more : (em.roundBit || em.stickyBit) = true ↔ (em.mantissa : ℚ) ≠ x := by
    rw [Bool.or_eq_true, sticky]
    cases bit : em.roundBit with
    | false => simp [half]
    | true =>
        rw [bit] at least
        refine iff_of_true (.inl rfl) (ne_of_lt ?_)
        simp only [half, if_true] at least
        linarith
  refine ⟨?_, ?_, more.trans ?_⟩
  · change ((em.mantissa / 2 : ℕ) : ℚ) + half (em.mantissa % 2 != 0) ≤ x / 2
    linarith
  · change x / 2 < ((em.mantissa / 2 : ℕ) : ℚ) + half (em.mantissa % 2 != 0) + 1 / 2
    linarith
  · change (em.mantissa : ℚ) ≠ x ↔ ((em.mantissa / 2 : ℕ) : ℚ) + half (em.mantissa % 2 != 0) ≠ x / 2
    rw [← halves, ne_eq, ne_eq, div_left_inj' two_ne_zero]

/-- A shift keeps what a mantissa with its residual bits stands for. -/
theorem Stands.shift (stands : Stands em x) (n : ℕ) : Stands (em >>> n) (x / 2 ^ n) := by
  change Stands (n.repeat ExtendedMantissa.shiftRightOne em) (x / 2 ^ n)
  induction n with
  | zero => simpa [Nat.repeat] using stands
  | succ n ih =>
      have half := ih.shiftRightOne
      rw [div_div, ← pow_succ] at half
      exact half

theorem mantissa_shift (em : ExtendedMantissa) (n : ℕ) : (em >>> n).mantissa = em.mantissa / 2 ^ n := by
  change (n.repeat ExtendedMantissa.shiftRightOne em).mantissa = em.mantissa / 2 ^ n
  induction n with
  | zero => simp [Nat.repeat]
  | succ n ih =>
      rw [pow_succ, ← Nat.div_div_eq_div_mul, ← ih]
      rfl

theorem Stands.abs_rounded_sub_le (stands : Stands em x) : |(em.roundedMantissa : ℚ) - x| ≤ 1 / 2 := by
  obtain ⟨mantissa, roundBit, stickyBit⟩ := em
  obtain ⟨least, most, sticky⟩ := stands
  rw [abs_le]
  cases roundBit with
  | false =>
      have same : (ExtendedMantissa.mk mantissa false stickyBit).roundedMantissa = mantissa := by
        cases stickyBit <;> rfl
      rw [same]
      simp only [half, Bool.false_eq_true, if_false] at least most
      constructor <;> linarith
  | true =>
      cases stickyBit with
      | true =>
          change -(1 / 2) ≤ ((mantissa + 1 : ℕ) : ℚ) - x ∧ ((mantissa + 1 : ℕ) : ℚ) - x ≤ 1 / 2
          simp only [half, if_true] at least most
          push_cast
          constructor <;> linarith
      | false =>
          have tie : (mantissa : ℚ) + 1 / 2 = x := by simpa [half] using sticky
          change -(1 / 2) ≤ ((mantissa + mantissa % 2 : ℕ) : ℚ) - x ∧
            ((mantissa + mantissa % 2 : ℕ) : ℚ) - x ≤ 1 / 2
          rcases Nat.mod_two_eq_zero_or_one mantissa with last | last <;> rw [last] <;> push_cast <;>
            constructor <;> linarith

theorem roundedMantissa_bounds (em : ExtendedMantissa) :
    em.mantissa ≤ em.roundedMantissa ∧ em.roundedMantissa ≤ em.mantissa + 1 := by
  obtain ⟨mantissa, roundBit, stickyBit⟩ := em
  cases roundBit <;> cases stickyBit <;>
    simp only [ExtendedMantissa.roundedMantissa, ExtendedMantissa.accuracy, Accuracy.roundToNearestEven] <;>
    omega

/-! ## Rounding -/

theorem mantissa_ofMantissaAndAccuracy (m : ℕ) (accuracy : Accuracy) :
    (ExtendedMantissa.ofMantissaAndAccuracy m accuracy).mantissa = m := by
  rcases accuracy with _ | order
  · rfl
  · cases order <;> rfl

theorem targetExponent_eq (e : ℤ) : Format.binary64.targetExponent e = max (e - 53) (-1074) := rfl

theorem targetExponent_totalExponent (m : ℕ) (e : ℤ) :
    Format.binary64.targetExponent (totalExponent m e) = max (m.log2 + e - 52) (-1074) := by
  rw [targetExponent_eq, totalExponent]
  congr 1
  ring

/-- The exact value of a number that is finite. -/
def unpackedValue : UnpackedFloat → Option ℚ
  | .zero _ => some 0
  | .finite sign m e _ => some ((sign.apply m : ℤ) * 2 ^ e)
  | _ => none

theorem unpackedValue_positive {m : ℕ} {e : ℤ} {positive : 0 < m} :
    unpackedValue (.finite .positive m e positive) = some ((m : ℚ) * 2 ^ e) := rfl

theorem unpackedValue_negative {m : ℕ} {e : ℤ} {positive : 0 < m} :
    unpackedValue (.finite .negative m e positive) = some (-((m : ℚ) * 2 ^ e)) := by
  rw [unpackedValue, Sign.apply, Int.cast_neg, Int.cast_natCast, neg_mul]

/-- The form that a finite number is packed from. -/
def IsCanonical : UnpackedFloat → Prop
  | .finite _ m e _ => m < 2 ^ 53 ∧ -1074 ≤ e ∧ (e = -1074 ∨ 2 ^ 52 ≤ m)
  | _ => True

/-- The result of a rounding, before it is told whether it is zero. -/
def ofUnits (m : ℕ) (e : ℤ) : UnpackedFloat :=
  if h : m = 0 then .zero .positive else .finite .positive m e (Nat.pos_of_ne_zero h)

theorem unpackedValue_ofUnits (m : ℕ) (e : ℤ) : unpackedValue (ofUnits m e) = some ((m : ℚ) * 2 ^ e) := by
  unfold ofUnits
  split
  · rename_i zero
    simp [unpackedValue, zero]
  · simp [unpackedValue, Sign.apply]

theorem isCanonical_ofUnits {m : ℕ} {e : ℤ} (bits : m < 2 ^ 53) (low : -1074 ≤ e)
    (full : e = -1074 ∨ 2 ^ 52 ≤ m) : IsCanonical (ofUnits m e) := by
  unfold ofUnits
  split
  · trivial
  · exact ⟨bits, low, full⟩

/-- A mantissa is shifted to its exponent and rounded, and shifted once more if that made it too long. -/
theorem roundWithAccuracy_eq (m : ℕ) (e shifted : ℤ) (accuracy : Accuracy) (n : ℕ)
    (hn : n = (max (m.log2 + e - 52) (-1074) - e).toNat) (hshifted : shifted = e + n) :
    let k := (ExtendedMantissa.ofMantissaAndAccuracy m accuracy >>> n).roundedMantissa
    let again := (max (k.log2 + shifted - 52) (-1074) - shifted).toNat
    roundWithAccuracy Format.binary64 .positive m e accuracy =
      ofUnits (k / 2 ^ again) (shifted + again) := by
  subst hshifted hn
  simp only [roundWithAccuracy, shiftToTargetExponent, shiftToExponent, targetExponent_totalExponent, mantissa_shift,
    mantissa_ofMantissaAndAccuracy]
  rfl

/-- A mantissa that is shifted to its exponent has 53 bits, or fewer in the smallest units. -/
theorem shifted_bounds {n : ℕ} {e t : ℤ} (ht : t = max (m.log2 + e - 52) (-1074)) (hn : n = (t - e).toNat)
    (bits : 52 ≤ m.log2 ∨ e ≤ -1074) : m / 2 ^ n < 2 ^ 53 ∧ (t = -1074 ∨ 2 ^ 52 ≤ m / 2 ^ n) := by
  constructor
  · rw [Nat.div_lt_iff_lt_mul (by positivity), ← pow_add]
    exact Nat.lt_log2_self.trans_le (Nat.pow_le_pow_right two_pos (by omega))
  · by_cases low : t = -1074
    · exact .inl low
    · refine .inr ?_
      have long : 52 ≤ m.log2 := by omega
      rw [Nat.le_div_iff_mul_le (by positivity), ← pow_add, show 52 + n = m.log2 by omega]
      exact Nat.log2_self_le (by rintro rfl; simp at long)

/-- Rounding yields the nearest number, if there are bits enough to round. -/
theorem roundWithAccuracy_nearest {e : ℤ}
    (stands : Stands (ExtendedMantissa.ofMantissaAndAccuracy m accuracy) x)
    (bits : 52 ≤ m.log2 ∨ e ≤ -1074) :
    ∃ c, IsNearest (x * 2 ^ e) c ∧
      unpackedValue (roundWithAccuracy Format.binary64 .positive m e accuracy) = some c ∧
      IsCanonical (roundWithAccuracy Format.binary64 .positive m e accuracy) := by
  obtain ⟨t, ht⟩ : ∃ t, t = max (m.log2 + e - 52) (-1074) := ⟨_, rfl⟩
  obtain ⟨n, hn⟩ : ∃ n, n = (t - e).toNat := ⟨_, rfl⟩
  have shifted : t = e + n := by omega
  have rounds := roundWithAccuracy_eq m e t accuracy n (ht ▸ hn) shifted
  dsimp only at rounds
  have stands' := stands.shift n
  obtain ⟨atLeast, atMost⟩ := roundedMantissa_bounds (ExtendedMantissa.ofMantissaAndAccuracy m accuracy >>> n)
  have near := stands'.abs_rounded_sub_le
  rw [mantissa_shift, mantissa_ofMantissaAndAccuracy] at atLeast atMost
  generalize (ExtendedMantissa.ofMantissaAndAccuracy m accuracy >>> n).roundedMantissa = k at *
  obtain ⟨short, full⟩ := shifted_bounds ht hn bits
  have scaled : x * 2 ^ e = x / 2 ^ n * 2 ^ t := by
    rw [shifted, zpow_add₀ two_ne_zero, zpow_natCast]
    field_simp
  have nearest : IsNearest (x * 2 ^ e) (k * 2 ^ t) := by
    refine isNearest_of_units (by omega) (by omega) ?_ (full.imp_right fun long => ?_)
    · rw [scaled, ← sub_mul, abs_mul, abs_of_pos (by positivity : (0 : ℚ) < 2 ^ t)]
      linarith [mul_le_mul_of_nonneg_right near (by positivity : (0 : ℚ) ≤ 2 ^ t)]
    · have units : (2 : ℚ) ^ 52 ≤ x / 2 ^ n := by
        have least := stands'.least
        rw [mantissa_shift, mantissa_ofMantissaAndAccuracy] at least
        have above : (2 : ℚ) ^ 52 ≤ (m / 2 ^ n : ℕ) := by exact_mod_cast long
        linarith [(half_bounds (ExtendedMantissa.ofMantissaAndAccuracy m accuracy >>> n).roundBit).1]
      rw [scaled]
      gcongr
  refine ⟨_, nearest, ?_⟩
  rw [rounds]
  rcases Nat.lt_or_ge k (2 ^ 53) with fits | long
  · -- the rounded mantissa is not too long
    have digits : k.log2 ≤ 52 := by
      rcases eq_or_ne k 0 with rfl | nonzero
      · exact Nat.zero_le _
      · exact Nat.lt_succ_iff.mp ((Nat.log2_lt nonzero).mpr fits)
    obtain none_left : (max (k.log2 + t - 52) (-1074) - t).toNat = 0 := by omega
    rw [none_left, pow_zero, Nat.div_one, Nat.cast_zero, add_zero]
    exact ⟨unpackedValue_ofUnits _ _, isCanonical_ofUnits fits (by omega) (full.imp_right fun long => by omega)⟩
  · obtain rfl : k = 2 ^ 53 := by omega
    have one_left : (max (((2 ^ 53 : ℕ).log2 : ℤ) + t - 52) (-1074) - t).toNat = 1 := by
      rw [Nat.log2_two_pow]
      omega
    rw [one_left]
    refine ⟨(unpackedValue_ofUnits _ _).trans ?_, isCanonical_ofUnits (by norm_num) (by omega) (.inr (by norm_num))⟩
    rw [Nat.cast_one, zpow_add₀ two_ne_zero]
    norm_num
    ring

end UsageBoard.Decimal
