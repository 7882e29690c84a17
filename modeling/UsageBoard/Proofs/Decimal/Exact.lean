import UsageBoard.Decimal.Reading
import UsageBoard.Proofs.Decimal.Rounding

/-!
# The exact value of a number

The bits of a number are taken apart once.  After that everything about a finite number is said of the
rational number that it stands for.

## Main statements

* `unpack_pack`: a number in the form that numbers are packed from is unpacked again.
* `isCanonical_unpack`: whatever is unpacked has that form.
* `whole?_eq_some_iff`: a number is an integer just if its exact value is one.
-/

namespace UsageBoard.Decimal

open Float.Model (Format UnpackedFloat)
open Float.Model.UnpackedFloat

/-! ## Packing -/

/-- The number with the given parts in its bits. -/
def ofParts (sign : Sign) (biased fraction : ℕ) : UnpackedFloat :=
  if biased = 2047 then if fraction = 0 then .infinity sign else .notANumber
  else if biased = 0 then
    if h : fraction = 0 then .zero sign else .finite sign fraction (-1074) (Nat.pos_of_ne_zero h)
  else .finite sign (2 ^ 52 + fraction) ((biased : ℤ) - 1075) (by omega)

theorem unpack_eq_ofParts (b : BitVec 64) :
    unpack Format.binary64 b =
      ofParts (Sign.ofBitVec (@unpackSign Format.binary64 b))
        (@unpackExponent Format.binary64 b).toNat
        (@unpackMantissa Format.binary64 b).toNat := by
  have implicit (m : BitVec 52) : (1#1 ++ m).toNat = 2 ^ 52 + m.toNat := by
    rw [BitVec.toNat_append, ← Nat.shiftLeft_add_eq_or_of_lt m.isLt]
    rfl
  have ones (e : BitVec 11) : e = -1#11 ↔ e.toNat = 2047 := by rw [← BitVec.toNat_inj]; rfl
  have zero {n : ℕ} (m : BitVec n) : m = 0#n ↔ m.toNat = 0 := by rw [← BitVec.toNat_inj]; rfl
  generalize hsign : Sign.ofBitVec (@unpackSign Format.binary64 b) = sign
  unfold unpack ofParts
  by_cases hones : @unpackExponent Format.binary64 b = -1#11
  · by_cases hzero : @unpackMantissa Format.binary64 b = 0#52
    · simp only [hones, hzero, hsign]
      rfl
    · rw [if_pos hones, if_neg hzero, if_pos ((ones _).mp hones), if_neg fun h => hzero ((zero _).mpr h)]
  · rw [if_neg hones, if_neg fun h => hones ((ones _).mpr h)]
    by_cases hlow : @unpackExponent Format.binary64 b = 0#11
    · rw [if_pos hlow, if_pos ((zero _).mp hlow)]
      by_cases hzero : @unpackMantissa Format.binary64 b = 0#52
      · rw [dif_pos hzero, dif_pos ((zero _).mp hzero), hsign]
      · rw [dif_neg hzero, dif_neg fun h => hzero ((zero _).mpr h)]
        simp only [hsign, hlow]
        rfl
    · rw [if_neg hlow, if_neg fun h => hlow ((zero _).mpr h)]
      simp only [hsign, implicit]
      rfl

theorem unpack_packComponents (sign : Sign) (e : BitVec 11) (m : BitVec 52) :
    unpack Format.binary64 (packComponents Format.binary64 sign e m) = ofParts sign e.toNat m.toNat := by
  rw [unpack_eq_ofParts, unpackSign_packComponents, Sign.ofBitVec_toBitVec, unpackExponent_packComponents,
    unpackMantissa_packComponents]

theorem ofParts_normal {sign : Sign} {biased fraction m : ℕ} {e : ℤ} (positive : 0 < m)
    (nonzero : biased ≠ 0) (inside : biased < 2047) (hm : 2 ^ 52 + fraction = m)
    (he : (biased : ℤ) - 1075 = e) : ofParts sign biased fraction = .finite sign m e positive := by
  subst hm he
  rw [ofParts, if_neg inside.ne, if_neg nonzero]

theorem log2_eq_of_full {m : ℕ} (full : 2 ^ 52 ≤ m) (bits : m < 2 ^ 53) : m.log2 = 52 := by
  have nonzero : m ≠ 0 := by omega
  have least := (Nat.le_log2 nonzero).mpr full
  have most := (Nat.log2_lt nonzero).mpr bits
  omega

theorem pack_finite (sign : Sign) {m : ℕ} (e : ℤ) (positive : 0 < m) :
    pack Format.binary64 (.finite sign m e positive) =
      if 2 ^ 11 ≤ (e + 1075).toNat + 1 then packedInfinity Format.binary64 sign
      else if m.log2 + 1 = 53 then
        packComponents Format.binary64 sign (BitVec.ofNat 11 (e + 1075).toNat) (BitVec.ofNat 52 m)
      else packComponents Format.binary64 sign 0#11 (BitVec.ofNat 52 m) := by
  have bias : (e + Format.binary64.exponentBias + Format.binary64.mantissaBitsWithoutImplicit).toNat =
      (e + 1075).toNat := by
    change (e + 1023 + 52).toNat = _
    omega
  rw [pack, bias]
  rfl

/-- A number in the form that it is packed from is unpacked again. -/
theorem unpack_pack {sign : Sign} {m : ℕ} {e : ℤ} (positive : 0 < m)
    (canonical : IsCanonical (.finite sign m e positive)) (high : e ≤ 971) :
    unpack Format.binary64 (pack Format.binary64 (.finite sign m e positive)) =
      .finite sign m e positive := by
  obtain ⟨bits, low, full⟩ := canonical
  rw [pack_finite, if_neg (by omega)]
  rcases Nat.lt_or_ge m (2 ^ 52) with short | long
  · obtain rfl : e = -1074 := full.resolve_right (by omega)
    have digits : m.log2 + 1 ≠ 53 := by
      have := (Nat.log2_lt positive.ne').mpr short
      omega
    have fraction : (BitVec.ofNat 52 m).toNat = m := by rw [BitVec.toNat_ofNat, Nat.mod_eq_of_lt short]
    rw [if_neg digits, unpack_packComponents, fraction]
    exact dif_neg positive.ne'
  · rw [if_pos (by rw [log2_eq_of_full long bits]), unpack_packComponents, BitVec.toNat_ofNat,
      BitVec.toNat_ofNat]
    apply ofParts_normal <;> omega

theorem unpack_pack_of_large {sign : Sign} {m : ℕ} {e : ℤ} (positive : 0 < m) (high : 971 < e) :
    unpack Format.binary64 (pack Format.binary64 (.finite sign m e positive)) = .infinity sign := by
  rw [pack_finite, if_pos (by omega)]
  exact unpack_packComponents sign _ _

/-- A number has the form that it was packed from. -/
theorem isCanonical_unpack {b : BitVec 64} {sign : Sign} {m : ℕ} {e : ℤ} {positive : 0 < m}
    (h : unpack Format.binary64 b = .finite sign m e positive) :
    IsCanonical (.finite sign m e positive) ∧ e ≤ 971 := by
  have short : (@unpackExponent Format.binary64 b).toNat < 2 ^ 11 := BitVec.isLt _
  have small : (@unpackMantissa Format.binary64 b).toNat < 2 ^ 52 := BitVec.isLt _
  rw [unpack_eq_ofParts, ofParts] at h
  split at h
  · split at h <;> cases h
  · split at h
    · split at h
      · cases h
      · obtain ⟨rfl, rfl, rfl⟩ := UnpackedFloat.finite.inj h
        exact ⟨⟨by omega, le_rfl, .inl rfl⟩, by omega⟩
    · obtain ⟨rfl, rfl, rfl⟩ := UnpackedFloat.finite.inj h
      exact ⟨⟨by omega, by omega, .inr (by omega)⟩, by omega⟩

/-! ## Exact values -/

theorem toNat_unpackExponent (bits : UInt64) :
    (@unpackExponent Format.binary64 bits.toBitVec).toNat = ((bits >>> 52) &&& 0x7FF).toNat := by
  have lower : (0x7FF : UInt64).toNat = 2 ^ 11 - 1 := rfl
  rw [UInt64.toNat_and, lower, Nat.and_two_pow_sub_one_eq_mod]
  rfl

theorem toNat_unpackMantissa (bits : UInt64) :
    (@unpackMantissa Format.binary64 bits.toBitVec).toNat = (bits &&& 0xFFFFFFFFFFFFF).toNat := by
  have lower : (0xFFFFFFFFFFFFF : UInt64).toNat = 2 ^ 52 - 1 := rfl
  rw [UInt64.toNat_and, lower, Nat.and_two_pow_sub_one_eq_mod]
  rfl

theorem ofBitVec_unpackSign (bits : UInt64) :
    Sign.ofBitVec (@unpackSign Format.binary64 bits.toBitVec) =
      if bits >>> 63 == 1 then .negative else .positive := by
  have high : bits.toNat >>> 63 < 2 := by
    rw [Nat.shiftRight_eq_div_pow]
    have := bits.toNat_lt
    omega
  have sign : (@unpackSign Format.binary64 bits.toBitVec).toNat = bits.toNat >>> 63 := Nat.mod_eq_of_lt high
  have positive : @unpackSign Format.binary64 bits.toBitVec = 0#1 ↔ bits.toNat >>> 63 = 0 := by
    rw [← BitVec.toNat_inj, sign]
    rfl
  have negative : (bits >>> 63 == 1) = true ↔ bits.toNat >>> 63 = 1 := by
    rw [beq_iff_eq, ← UInt64.toNat_inj]
    rfl
  rw [Sign.ofBitVec]
  simp only [positive, negative]
  split <;> split <;> first | rfl | omega

/-- The exact value of a number that is finite. -/
def exactValue (x : Float) : Option ℚ := unpackedValue x.toModel.unpack

theorem unpack_eq (x : Float) :
    x.toModel.unpack = ofParts (if x.toBits >>> 63 == 1 then .negative else .positive)
      ((x.toBits >>> 52) &&& 0x7FF).toNat (x.toBits &&& 0xFFFFFFFFFFFFF).toNat := by
  rw [← ofBitVec_unpackSign, ← toNat_unpackExponent, ← toNat_unpackMantissa]
  exact unpack_eq_ofParts _

/-- The parts of a finite number are those of what its bits are unpacked to. -/
theorem whole?_eq (x : Float) :
    whole? x =
      match x.toModel.unpack with
      | .zero _ => some 0
      | .finite sign m e _ =>
          if m % 2 ^ (-e).toNat = 0 then some (sign.apply (m / 2 ^ (-e).toNat * 2 ^ e.toNat : ℕ)) else none
      | _ => none := by
  have unpacked := unpack_eq x
  have nan : x.isNaN = x.toModel.unpack.isNaN := rfl
  have inf : x.isInf = x.toModel.unpack.isInf := rfl
  unfold whole? Magnitude.of Binary.ofBits isNegative
  rw [nan, inf, unpacked]
  generalize (x.toBits >>> 63 == 1) = negative
  generalize ((x.toBits >>> 52) &&& 0x7FF).toNat = biased
  generalize (x.toBits &&& 0xFFFFFFFFFFFFF).toNat = fraction
  by_cases last : biased = 2047
  · by_cases zero : fraction = 0
    · rw [ofParts, if_pos last, if_pos zero]
      rfl
    · rw [ofParts, if_pos last, if_neg zero]
      rfl
  · by_cases low : biased = 0
    · by_cases zero : fraction = 0
      · rw [ofParts, if_neg last, if_pos low, dif_pos zero, if_pos low, zero]
        simp only [UnpackedFloat.isNaN, UnpackedFloat.isInf, Bool.false_eq_true, if_false, Nat.zero_mod,
          if_true, Nat.zero_div, Nat.zero_mul, Nat.cast_zero, neg_zero, ite_self]
      · rw [ofParts, if_neg last, if_pos low, dif_neg zero, if_pos low]
        cases negative <;> rfl
    · rw [ofParts, if_neg last, if_neg low, if_neg low]
      cases negative <;> rfl

theorem whole_size {m : ℕ} {n e : ℤ} :
    m % 2 ^ (-e).toNat = 0 ∧ ((m / 2 ^ (-e).toNat * 2 ^ e.toNat : ℕ) : ℤ) = n ↔ (m * 2 ^ e : ℚ) = n := by
  rcases le_or_gt 0 e with up | down
  · obtain ⟨k, rfl⟩ := Int.eq_ofNat_of_zero_le up
    have none_below : (-(k : ℤ)).toNat = 0 := by omega
    rw [none_below, pow_zero, Nat.mod_one, Nat.div_one, Int.toNat_natCast, zpow_natCast]
    simp only [true_and]
    exact_mod_cast Iff.rfl
  · obtain ⟨k, rfl⟩ : ∃ k : ℕ, e = -k := ⟨(-e).toNat, by omega⟩
    have none_above : (-(k : ℤ)).toNat = 0 := by omega
    rw [neg_neg, Int.toNat_natCast, none_above, pow_zero, mul_one, zpow_neg, zpow_natCast, ← div_eq_mul_inv,
      div_eq_iff (by positivity)]
    constructor
    · rintro ⟨whole, rfl⟩
      exact_mod_cast (Nat.div_mul_cancel (Nat.dvd_of_mod_eq_zero whole)).symm
    · intro h
      have h : (m : ℤ) = n * 2 ^ k := by exact_mod_cast h
      have divides : (2 ^ k : ℕ) ∣ m := by
        rw [← Int.natCast_dvd_natCast, h]
        exact ⟨n, by push_cast; ring⟩
      refine ⟨Nat.mod_eq_zero_of_dvd divides, ?_⟩
      rw [Int.natCast_div, h, Nat.cast_pow, Nat.cast_two]
      exact Int.mul_ediv_cancel _ (by positivity)

theorem apply_eq_iff {sign : Sign} {a n : ℤ} : sign.apply a = n ↔ a = sign.apply n := by
  cases sign with
  | negative => exact neg_eq_iff_eq_neg
  | positive => exact Iff.rfl

theorem apply_mul_eq_iff {sign : Sign} {m n : ℤ} {x : ℚ} :
    ((sign.apply m : ℤ) : ℚ) * x = n ↔ m * x = (sign.apply n : ℤ) := by
  cases sign with
  | negative =>
      change ((-m : ℤ) : ℚ) * x = n ↔ m * x = (-n : ℤ)
      rw [Int.cast_neg, Int.cast_neg, neg_mul, neg_eq_iff_eq_neg]
  | positive => exact Iff.rfl

/-- A number is whole if its exact value is. -/
theorem whole?_eq_some_iff {x : Float} {n : ℤ} : whole? x = some n ↔ exactValue x = some (n : ℚ) := by
  rw [whole?_eq, exactValue]
  cases x.toModel.unpack with
  | notANumber => simp [unpackedValue]
  | infinity sign => simp [unpackedValue]
  | zero sign => simp [unpackedValue, eq_comm]
  | finite sign m e positive =>
      have size := whole_size (m := m) (n := sign.apply n) (e := e)
      rw [unpackedValue, Option.some.injEq, apply_mul_eq_iff, Int.cast_natCast, ← size, ← apply_eq_iff]
      dsimp only
      split <;> simp_all

end UsageBoard.Decimal
