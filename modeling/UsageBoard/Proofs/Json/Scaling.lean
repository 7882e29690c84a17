import UsageBoard.Json.Number
import UsageBoard.Proofs.Decimal.Powers

/-!
# Scaling by powers of ten

The digits of a decimal are read as an integer, which is multiplied or divided by a power of ten.  That rounds
twice where the power is not exact, but then the value is too large or too small for an integer of 64 bits.

## Main statements

* `exists_isReading`: what a decimal of few digits is read as.
* `lt_of_scaled`: a decimal of more digits than a word takes is too large for an integer of 64 bits.
-/

namespace UsageBoard.Json

open UsageBoard.Decimal

theorem isInf_of_exactValue {x : Float} {c : ℚ} (h : exactValue x = some c) : x.isInf = false := by
  rw [exactValue] at h
  change x.toModel.unpack.isInf = false
  cases hu : x.toModel.unpack with
  | infinity sign => rw [hu] at h; cases h
  | _ => rfl

/-- The integers that a text may be read as if it is read as a certain value, which may be out of range. -/
def Reads (found : Option Float) (c : ℚ) : Prop :=
  ∀ j : ℤ, found.bind whole? = some j ↔ c < realEnd ∧ c = j

theorem reads_of_exactValue {x : Float} {c : ℚ} (h : exactValue x = some c) (small : c < realEnd) :
    Reads (some x) c := by
  intro j
  rw [Option.bind_some, whole?_eq_some_iff, h, Option.some.injEq, and_iff_right small]

theorem reads_of_roundsTo {x : Float} {v : ℚ} (rounds : RoundsTo v x) :
    ∃ c, IsNearest v c ∧ Reads (if x.isInf then none else some x) c := by
  obtain ⟨c, nearest, result⟩ := rounds
  refine ⟨c, nearest, ?_⟩
  split at result
  · rename_i small
    rw [isInf_of_exactValue result, if_neg Bool.false_ne_true]
    exact reads_of_exactValue result small
  · rename_i large
    rw [if_pos result.1]
    exact fun j => iff_of_false (Option.some_ne_none j).symm fun h => large h.1

/-- What a decimal is read as: an integer as itself, if it can be, and no other decimal as an integer. -/
structure IsReading (v c : ℚ) : Prop where
  double : IsDouble c
  same : ∀ j : ℤ, v = j → v ≤ 2 ^ 63 → IsDouble v → c = v
  fraction : (∀ j : ℤ, v ≠ j) → ∀ j : ℤ, c ≠ j
  large : 2 ^ 63 < v → 2 ^ 63 < c

theorem isReading_zero : IsReading 0 0 where
  double := isDouble_zero
  same _ _ _ _ := rfl
  fraction none _ := absurd Int.cast_zero.symm (none 0)
  large := id

theorem ne_intCast_of_between {x : ℚ} (positive : 0 < x) (small : x < 1) (j : ℤ) : x ≠ j := by
  rintro rfl
  have : 0 < j := by exact_mod_cast positive
  have : j < 1 := by exact_mod_cast small
  omega

/-- A value below one is read as a number below one. -/
theorem isReading_of_between {v c : ℚ} (double : IsDouble c) (positive : 0 < v) (small : v < 1) (positive' : 0 < c)
    (small' : c < 1) : IsReading v c where
  double := double
  same j whole := absurd whole (ne_intCast_of_between positive small j)
  fraction _ := ne_intCast_of_between positive' small'
  large above := absurd above (by linarith)

variable {m : ℕ}

/-! ## Scaling up -/

theorem reads_up (bits : m < 2 ^ 53) {k : ℕ} (high : k ≤ 308) :
    ∃ c, IsReading (m * 10 ^ k) c ∧ Reads (scaleReal 3 (ofInt m) k) c := by
  obtain ⟨p, hp, -, small, powers⟩ := exactValue_power high
  have steps : scaleReal 3 (ofInt m) k =
      if (ofInt m * nearest 1 k).isInf then none else some (ofInt m * nearest 1 k) := by
    rw [scaleReal, if_pos (by omega), if_pos (by omega)]
  have one : 1 ≤ p := by simpa using powers 0 (by omega) (by omega)
  obtain ⟨c, nearest, reads⟩ := reads_of_roundsTo
    (roundsTo_mul (exactValue_ofInt bits) hp (by positivity) (by linarith))
  refine ⟨c, ?_, steps ▸ reads⟩
  have integer : ¬∀ j : ℤ, (m * 10 ^ k : ℚ) ≠ j := fun none => none (m * 10 ^ k : ℕ) (by push_cast; rfl)
  rcases Nat.eq_zero_or_pos m with rfl | positive
  · rw [Nat.cast_zero, zero_mul] at nearest ⊢
    exact nearest.eq_of_double isDouble_zero ▸ isReading_zero
  · rcases Nat.lt_or_ge 22 k with far | near
    · have digit : (1 : ℚ) ≤ m := by exact_mod_cast positive
      have above : (10 : ℚ) ^ 22 ≤ c :=
        nearest.le_of_le (isDouble_pow_ten le_rfl)
          ((powers 22 le_rfl far.le).trans (le_mul_of_one_le_left (by linarith) digit))
      have value : (10 : ℚ) ^ 22 ≤ m * 10 ^ k :=
        (pow_le_pow_right₀ (by norm_num) far.le).trans (le_mul_of_one_le_left (by positivity) digit)
      have word : (2 : ℚ) ^ 63 < 10 ^ 22 := by norm_num
      exact ⟨nearest.double, fun _ _ le => absurd le (by linarith), (absurd · integer), fun _ => by linarith⟩
    · rw [small near] at nearest
      refine ⟨nearest.double, fun _ _ _ double => nearest.eq_of_double double, (absurd · integer), fun large => ?_⟩
      have beyond : 2 ^ 63 < m * 10 ^ k := by exact_mod_cast large
      -- as `m` has 53 bits, the power is `10 ^ 4` at least
      obtain ⟨r, rfl⟩ : ∃ r, k = r + 4 := by
        refine Nat.exists_eq_add_of_le' ?_
        by_contra less
        have : 10 ^ k ≤ 10 ^ 3 := Nat.pow_le_pow_right (by decide) (by omega)
        have : m * 10 ^ k ≤ m * 10 ^ 3 := Nat.mul_le_mul_left _ this
        omega
      have next : 2 ^ 63 + 2 ^ 11 ≤ m * 10 ^ (r + 4) := by
        rw [pow_add, ← mul_assoc] at beyond ⊢
        omega
      have least := nearest.le_of_le isDouble_next (by exact_mod_cast next)
      linarith

theorem reads_beyond (bits : m < 2 ^ 53) {k : ℕ} (beyond : 308 < k) :
    ∃ c, IsReading (m * 10 ^ k) c ∧ Reads (scaleReal 3 (ofInt m) k) c := by
  have value := exactValue_ofInt bits
  have steps : scaleReal 3 (ofInt m) k = if ofInt m == 0.0 then some (ofInt m) else none := by
    rw [scaleReal, if_neg (by omega), if_pos (Int.natCast_nonneg k)]
  rw [steps]
  rcases Nat.eq_zero_or_pos m with rfl | positive
  · rw [if_pos ((eq_zero_iff value).mpr Nat.cast_zero), Nat.cast_zero, zero_mul]
    exact ⟨0, isReading_zero, reads_of_exactValue (by simpa using value) realEnd_pos⟩
  · have nonzero : ¬(ofInt m == 0.0) = true := fun zero => positive.ne' (by exact_mod_cast (eq_zero_iff value).mp zero)
    rw [if_neg nonzero]
    have great : (2 : ℚ) ^ 63 < m * 10 ^ k := by
      have digit : (1 : ℚ) ≤ m := by exact_mod_cast positive
      calc (2 : ℚ) ^ 63 < 10 ^ 22 := by norm_num
        _ ≤ 10 ^ k := pow_le_pow_right₀ (by norm_num) (by omega)
        _ ≤ m * 10 ^ k := le_mul_of_one_le_left (by positivity) digit
    have double : IsDouble realEnd := by
      rw [realEnd, ← zpow_ofNat]
      exact isDouble_zpow (by norm_num)
    refine ⟨realEnd, ⟨double, fun _ _ le => absurd le (by linarith), ?_, fun _ => ?_⟩, ?_⟩
    · exact fun none => absurd (by push_cast; rfl) (none (m * 10 ^ k : ℕ))
    · rw [realEnd]
      exact pow_lt_pow_right₀ one_lt_two (by norm_num)
    · exact fun j => iff_of_false (Option.some_ne_none j).symm fun h => absurd h.1 (lt_irrefl _)

/-- A word that is not all of the digits is too large for an integer of 64 bits. -/
theorem lt_of_scaled (word : m < 2 ^ 64) (long : 2 ^ 60 ≤ m) {k : ℕ} (some_left : 0 < k) {j : ℤ}
    (read : (scaleReal 3 (ofInt m) k).bind whole? = some j) : 2 ^ 63 < j := by
  obtain ⟨a, ha, nearest⟩ := exists_value_ofInt word
  have atLeast : (2 : ℚ) ^ (60 : ℤ) ≤ m := by
    rw [zpow_ofNat]
    exact_mod_cast long
  have above := nearest.le_of_le (isDouble_zpow (by norm_num)) atLeast
  rcases Nat.lt_or_ge 308 k with beyond | high
  · have nonzero : ¬(ofInt m == 0.0) = true := by
      rw [eq_zero_iff ha]
      exact ((by positivity : (0 : ℚ) < 2 ^ (60 : ℤ)).trans_le above).ne'
    rw [scaleReal, if_neg (by omega), if_neg nonzero, if_pos (Int.natCast_nonneg k)] at read
    cases read
  · obtain ⟨p, hp, -, -, powers⟩ := exactValue_power high
    have ten : 10 ≤ p := by simpa using powers 1 (by omega) (by omega)
    have product : (5 : ℕ) * 2 ^ (61 : ℤ) ≤ a * p := by
      calc ((5 : ℕ) * 2 ^ (61 : ℤ) : ℚ) = 2 ^ (60 : ℤ) * 10 := by norm_num
        _ ≤ a * p := by gcongr
    obtain ⟨c, nearest, reads⟩ :=
      reads_of_roundsTo (roundsTo_mul ha hp nearest.double.nonneg (by linarith))
    have least := nearest.le_of_le ⟨5, 61, by norm_num, by norm_num, rfl⟩ product
    rw [scaleReal, if_pos (by omega), if_pos (by omega)] at read
    obtain ⟨-, rfl⟩ := (reads j).mp read
    have beyond : (2 ^ 63 : ℚ) < j := lt_of_lt_of_le (by norm_num) least
    exact_mod_cast beyond

/-! ## Scaling down -/

theorem reads_down (bits : m < 2 ^ 53) {k : ℕ} (down : 0 < k) (high : k ≤ 308) :
    ∃ c, IsReading (m / 10 ^ k) c ∧ Reads (scaleReal 3 (ofInt m) (-k)) c := by
  obtain ⟨p, hp, finite, small, powers⟩ := exactValue_power high
  have steps : scaleReal 3 (ofInt m) (-k) = some (ofInt m / nearest 1 k) := by
    rw [scaleReal, if_pos (by omega), if_neg (by omega), neg_neg]
  have one : 1 ≤ p := by simpa using powers 0 (by omega) (by omega)
  have positive : 0 < p := zero_lt_one.trans_le one
  have size : (m : ℚ) ≤ (2 ^ 53 : ℕ) := by exact_mod_cast bits.le
  have below : (m / p : ℚ) ≤ (2 ^ 53 : ℕ) := (div_le_self (by positivity) one).trans size
  have double : IsDouble (2 ^ 53 : ℕ) := isDouble_natCast le_rfl
  obtain ⟨c, hc, nearest⟩ :=
    (roundsTo_div (exactValue_ofInt bits) hp (Nat.cast_nonneg m) positive).exists_value double below
      (natCast_lt_realEnd (by norm_num))
  refine ⟨c, ?_, steps ▸ reads_of_exactValue hc
    ((nearest.ge_of_ge double below).trans_lt (natCast_lt_realEnd (by norm_num)))⟩
  rcases Nat.eq_zero_or_pos m with rfl | nonzero
  · rw [Nat.cast_zero, zero_div] at nearest ⊢
    exact nearest.eq_of_double isDouble_zero ▸ isReading_zero
  rcases Nat.lt_or_ge 22 k with far | near
  · -- both the value and what it is read as lie between zero and one
    have digit : (1 : ℚ) ≤ m := by exact_mod_cast nonzero
    have value : (m / 10 ^ k : ℚ) < 1 := by
      rw [div_lt_one (by positivity)]
      calc (m : ℚ) ≤ (2 ^ 53 : ℕ) := size
        _ < 10 ^ 22 := by norm_num
        _ ≤ 10 ^ k := pow_le_pow_right₀ (by norm_num) far.le
    have atMost : c ≤ 2 ^ (-1 : ℤ) := by
      refine nearest.ge_of_ge (isDouble_zpow (by norm_num)) ?_
      rw [div_le_iff₀ positive]
      calc (m : ℚ) ≤ (2 ^ 53 : ℕ) := size
        _ ≤ 2 ^ (-1 : ℤ) * 10 ^ 22 := by norm_num
        _ ≤ 2 ^ (-1 : ℤ) * p := by gcongr; exact powers 22 le_rfl far.le
    have atLeast : (2 : ℚ) ^ (-1024 : ℤ) ≤ c := by
      refine nearest.le_of_le (isDouble_zpow (by norm_num)) ?_
      rw [le_div_iff₀ positive]
      calc (2 : ℚ) ^ (-1024 : ℤ) * p ≤ 2 ^ (-1024 : ℤ) * realEnd := by gcongr
        _ = 1 := by rw [realEnd, ← zpow_ofNat, ← zpow_add₀ two_ne_zero]; rfl
        _ ≤ m := digit
    exact isReading_of_between nearest.double (by positivity) value
      ((by positivity : (0 : ℚ) < 2 ^ (-1024 : ℤ)).trans_le atLeast) (atMost.trans_lt (by norm_num))
  · rw [small near] at nearest
    have inside : ¬(2 : ℚ) ^ 63 < m / 10 ^ k := by
      rw [not_lt]
      calc (m / 10 ^ k : ℚ) ≤ m := div_le_self (by positivity) (one_le_pow₀ (by norm_num))
        _ ≤ (2 ^ 53 : ℕ) := size
        _ ≤ 2 ^ 63 := by norm_num
    exact ⟨nearest.double, fun _ _ _ double => nearest.eq_of_double double,
      ne_intCast_of_isNearest bits near nearest, (absurd · inside)⟩

/-- A decimal of few digits is read exactly, if its value can be, and never as an integer that it is not,
unless digits of an integer are lost. -/
theorem exists_isReading (bits : m < 2 ^ 53) {e : ℤ} (low : -308 ≤ e) :
    ∃ c, IsReading (m * 10 ^ e) c ∧ Reads (scaleReal 3 (ofInt m) e) c := by
  rcases le_or_gt 0 e with up | down
  · obtain ⟨k, rfl⟩ := Int.eq_ofNat_of_zero_le up
    rw [zpow_natCast]
    rcases Nat.lt_or_ge 308 k with beyond | high
    · exact reads_beyond bits beyond
    · exact reads_up bits high
  · obtain ⟨k, rfl⟩ : ∃ k : ℕ, e = -k := ⟨(-e).toNat, by omega⟩
    rw [zpow_neg, zpow_natCast, ← div_eq_mul_inv]
    exact reads_down bits (by omega) (by omega)

end UsageBoard.Json
