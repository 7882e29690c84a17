import UsageBoard.Proofs.Decimal.Arithmetic

/-!
# Powers of ten and integers above those of 64 bits

## Main statements

* `ne_intCast_of_isNearest`: a decimal of few digits that is no integer is not rounded to one.
* `exactValue_power`: up to `10 ^ 22` powers of ten are exact, and above that they are not below it.
* `whole?_ofInt_eq_top_iff`: the integers that are rounded to the first one above those of 64 bits.
-/

namespace UsageBoard.Decimal

/-! ## Numbers that are no integers -/

/-- The nearest number is off by half a unit at most. -/
theorem exists_isDouble_near {v : ℚ} {s : ℤ} (nonneg : 0 ≤ v) (below : v < 2 ^ (53 + s)) (low : -1074 ≤ s) :
    ∃ r, IsDouble r ∧ |r - v| ≤ 2 ^ s / 2 := by
  have unit : (0 : ℚ) < 2 ^ s := by positivity
  have few : v / 2 ^ s < 2 ^ 53 := by
    rwa [div_lt_iff₀ unit, ← zpow_natCast, ← zpow_add₀ two_ne_zero]
  have atMost := Nat.floor_le (by positivity : 0 ≤ v / 2 ^ s + 1 / 2)
  have atLeast := Nat.lt_floor_add_one (v / 2 ^ s + 1 / 2)
  refine ⟨⌊v / 2 ^ s + 1 / 2⌋₊ * 2 ^ s, ⟨_, s, ?_, low, rfl⟩, ?_⟩
  · refine Nat.lt_succ_iff.mp ((Nat.floor_lt (by positivity)).mpr ?_)
    push_cast
    linarith
  · have near : |(⌊v / 2 ^ s + 1 / 2⌋₊ : ℚ) - v / 2 ^ s| ≤ 1 / 2 := by
      rw [abs_le]
      constructor <;> linarith
    calc |(⌊v / 2 ^ s + 1 / 2⌋₊ : ℚ) * 2 ^ s - v|
        = |(⌊v / 2 ^ s + 1 / 2⌋₊ : ℚ) - v / 2 ^ s| * 2 ^ s := by
          rw [← abs_of_pos unit, ← abs_mul, abs_of_pos unit, sub_mul, div_mul_cancel₀ _ unit.ne']
      _ ≤ 1 / 2 * 2 ^ s := by gcongr
      _ = 2 ^ s / 2 := by ring

/-- A decimal of few digits that is no integer is not rounded to an integer. -/
theorem ne_intCast_of_isNearest {m k : ℕ} {c : ℚ} (bits : m < 2 ^ 53) (places : k ≤ 22)
    (nearest : IsNearest (m / 10 ^ k) c) (fraction : ∀ j : ℤ, (m / 10 ^ k : ℚ) ≠ j) (j : ℤ) : c ≠ j := by
  rintro rfl
  have ten : (0 : ℚ) < 10 ^ k := by positivity
  have positive : (0 : ℚ) < m / 10 ^ k := by
    refine lt_of_le_of_ne (by positivity) fun zero => fraction 0 ?_
    rw [← zero, Int.cast_zero]
  obtain ⟨s, least, most⟩ := exists_mem_Ico_zpow positive one_lt_two
  have some_digit : 1 ≤ m := Nat.one_le_iff_ne_zero.mpr (by rintro rfl; simp at positive)
  have low : -1074 ≤ s - 52 := by
    by_contra less
    have tiny : (m / 10 ^ k : ℚ) < 1 / 10 ^ 22 := by
      calc (m / 10 ^ k : ℚ) < 2 ^ (s + 1) := most
        _ ≤ 2 ^ (-74 : ℤ) := by gcongr; norm_num; omega
        _ < 1 / 10 ^ 22 := by norm_num
    have least : (1 / 10 ^ 22 : ℚ) ≤ m / 10 ^ k := by
      gcongr
      · exact_mod_cast some_digit
      · norm_num
    linarith
  obtain ⟨r, double, near⟩ := exists_isDouble_near positive.le (s := s - 52)
    (by rwa [show 53 + (s - 52) = s + 1 by omega]) low
  have close : |(j : ℚ) - m / 10 ^ k| ≤ 2 ^ (s - 53) := by
    calc |(j : ℚ) - m / 10 ^ k| ≤ |r - m / 10 ^ k| := nearest.nearest r double
      _ ≤ 2 ^ (s - 52) / 2 := near
      _ = 2 ^ (s - 53) := by
          rw [show s - 52 = s - 53 + 1 by omega, zpow_add_one₀ two_ne_zero, mul_div_cancel_right₀ _ two_ne_zero]
  have apart : 1 / 10 ^ k ≤ |(j : ℚ) - m / 10 ^ k| := by
    have whole : (j : ℚ) - m / 10 ^ k = (j * 10 ^ k - m : ℤ) / 10 ^ k := by
      push_cast
      rw [sub_div, mul_div_cancel_right₀ _ ten.ne']
    have other : (j * 10 ^ k - m : ℤ) ≠ 0 := by
      intro same
      rw [same, Int.cast_zero, zero_div] at whole
      exact fraction j (by linarith)
    rw [whole, abs_div, abs_of_pos ten]
    gcongr
    exact_mod_cast Int.one_le_abs other
  have small : (m / 10 ^ k : ℚ) < 2 ^ s := by
    calc (m / 10 ^ k : ℚ) = m * (1 / 10 ^ k) := div_eq_mul_one_div _ _
      _ < 2 ^ 53 * (1 / 10 ^ k) := by gcongr; exact_mod_cast bits
      _ ≤ 2 ^ 53 * 2 ^ (s - 53) := by gcongr; exact apart.trans close
      _ = 2 ^ s := by
        rw [← zpow_natCast, ← zpow_add₀ two_ne_zero]
        congr 1
        omega
  linarith

/-! ## Powers of ten -/

theorem isDouble_zpow {t : ℤ} (low : -1074 ≤ t) : IsDouble (2 ^ t) :=
  ⟨1, t, by norm_num, low, by rw [Nat.cast_one, one_mul]⟩

theorem isDouble_pow_ten {k : ℕ} (small : k ≤ 22) : IsDouble (10 ^ k) := by
  refine ⟨5 ^ k, k, ?_, by omega, ?_⟩
  · exact (Nat.pow_le_pow_right (by decide) small).trans (by norm_num)
  · rw [zpow_natCast, Nat.cast_pow, ← mul_pow]
    norm_num

theorem RoundsTo.exists_value {v r : ℚ} {x : Float} (rounds : RoundsTo v x) (double : IsDouble r)
    (le : v ≤ r) (small : r < realEnd) : ∃ c, exactValue x = some c ∧ IsNearest v c := by
  obtain ⟨c, nearest, result⟩ := rounds
  rw [if_pos ((nearest.ge_of_ge double le).trans_lt small)] at result
  exact ⟨c, result, nearest⟩

/-- The number nearest to a power of ten is the power itself, if it is small. -/
theorem exactValue_power {k : ℕ} (high : k ≤ 308) :
    ∃ p, exactValue (nearest 1 k) = some p ∧ p < realEnd ∧ (k ≤ 22 → p = 10 ^ k) ∧
      ∀ j ≤ 22, j ≤ k → 10 ^ j ≤ p := by
  have rounds : RoundsTo (10 ^ k) (nearest 1 k) := by
    simpa using roundsTo_nearest (m := 1) high (by norm_num)
  have greatest : IsDouble (((2 ^ 53 - 1 : ℕ) * 2 ^ 971 : ℕ) : ℚ) :=
    ⟨2 ^ 53 - 1, 971, by norm_num, by norm_num, by rw [zpow_ofNat, Nat.cast_mul, Nat.cast_pow 2 971, Nat.cast_two]⟩
  have above : (10 ^ k : ℚ) ≤ ((2 ^ 53 - 1 : ℕ) * 2 ^ 971 : ℕ) := by
    have whole : 10 ^ k ≤ (2 ^ 53 - 1) * 2 ^ 971 :=
      (Nat.pow_le_pow_right (by decide) high).trans (by decide +kernel)
    exact_mod_cast whole
  have below : (((2 ^ 53 - 1 : ℕ) * 2 ^ 971 : ℕ) : ℚ) < realEnd := by
    have whole : (2 ^ 53 - 1) * 2 ^ 971 < 2 ^ 1024 := by decide +kernel
    rw [realEnd]
    exact_mod_cast whole
  obtain ⟨p, hp, nearest⟩ := rounds.exists_value greatest above below
  refine ⟨p, hp, (nearest.ge_of_ge greatest above).trans_lt below, fun small => ?_, fun j small le => ?_⟩
  · exact nearest.eq_of_double (isDouble_pow_ten small)
  · exact nearest.le_of_le (isDouble_pow_ten small) (pow_le_pow_right₀ (by norm_num) le)

/-! ## Integers above those of 64 bits -/

theorem eq_of_isDouble {c : ℚ} (double : IsDouble c) (least : 2 ^ 63 ≤ c) (most : c < 2 ^ 63 + 2 ^ 11) :
    c = 2 ^ 63 := by
  obtain ⟨k, t, bits, low, rfl⟩ := double
  have few : (k : ℚ) ≤ 2 ^ 53 := by exact_mod_cast bits
  rcases lt_or_ge t 11 with fine | coarse
  · refine le_antisymm ?_ least
    calc (k : ℚ) * 2 ^ t ≤ 2 ^ 53 * 2 ^ (10 : ℤ) := by gcongr; norm_num; omega
      _ = 2 ^ 63 := by norm_num
  · -- the number is a multiple of `2 ^ 11`
    obtain ⟨s, rfl⟩ : ∃ s : ℕ, t = s + 11 := ⟨(t - 11).toNat, by omega⟩
    have whole : (k : ℚ) * 2 ^ ((s : ℤ) + 11) = (k * 2 ^ s * 2 ^ 11 : ℕ) := by
      rw [zpow_add₀ two_ne_zero, zpow_natCast, zpow_ofNat]
      push_cast
      ring
    rw [whole] at least most ⊢
    have least : 2 ^ 63 ≤ k * 2 ^ s * 2 ^ 11 := by exact_mod_cast least
    have most : k * 2 ^ s * 2 ^ 11 < 2 ^ 63 + 2 ^ 11 := by exact_mod_cast most
    have same : k * 2 ^ s * 2 ^ 11 = 2 ^ 63 := by omega
    exact_mod_cast same

theorem isDouble_top : IsDouble (2 ^ 63) := ⟨1, 63, by norm_num, by norm_num, by norm_num⟩

theorem isDouble_next : IsDouble (2 ^ 63 + 2 ^ 11) := ⟨2 ^ 52 + 1, 11, by norm_num, by norm_num, by norm_num⟩

/-- A word is rounded to a finite number. -/
theorem exists_value_ofInt {n : ℕ} (word : n < 2 ^ 64) : ∃ c, exactValue (ofInt n) = some c ∧ IsNearest n c :=
  (roundsTo_ofInt word).exists_value (r := (2 ^ 64 : ℕ)) ⟨2 ^ 53, 11, le_rfl, by norm_num, by norm_num⟩
    (by exact_mod_cast word.le) (natCast_lt_realEnd le_rfl)

/-- No integer above those of 64 bits is rounded to one of them. -/
theorem le_of_whole?_ofInt {n : ℕ} (large : 2 ^ 63 ≤ n) (word : n < 2 ^ 64) {j : ℤ}
    (found : whole? (ofInt n) = some j) : 2 ^ 63 ≤ j := by
  obtain ⟨c, hc, nearest⟩ := exists_value_ofInt word
  rw [whole?_eq_some_iff, hc] at found
  obtain rfl := Option.some.inj found
  have least := nearest.le_of_le isDouble_top (by exact_mod_cast large)
  exact_mod_cast least

/-- An integer is rounded to the first one above those of 64 bits just if it is nearer to it than to the
next number; of the two, a tie goes to the even mantissa. -/
theorem whole?_ofInt_eq_top_iff {n : ℕ} (large : 2 ^ 63 < n) (word : n < 2 ^ 64) :
    whole? (ofInt n) = some (2 ^ 63) ↔ n ≤ 2 ^ 63 + 2 ^ 10 := by
  obtain ⟨c, hc, nearest⟩ := exists_value_ofInt word
  have beyond : (2 : ℚ) ^ 63 < n := by exact_mod_cast large
  have least := nearest.le_of_le isDouble_top beyond.le
  have above := nearest.nearest _ isDouble_next
  have integer : ((2 ^ 63 : ℤ) : ℚ) = 2 ^ 63 := by norm_num
  rw [whole?_eq_some_iff, hc, Option.some.injEq, integer]
  rcases lt_trichotomy n (2 ^ 63 + 2 ^ 10) with near | rfl | far
  · refine iff_of_true (eq_of_isDouble nearest.double least ?_) near.le
    have near : (n : ℚ) < 2 ^ 63 + 2 ^ 10 := by exact_mod_cast near
    have below := nearest.nearest _ isDouble_top
    rw [abs_of_nonpos (by linarith : (2 : ℚ) ^ 63 - n ≤ 0)] at below
    linarith [le_abs_self (c - n)]
  · refine iff_of_true ?_ le_rfl
    have tie : whole? (ofInt (2 ^ 63 + 2 ^ 10 : ℕ)) = some (2 ^ 63) := by decide +kernel
    rwa [whole?_eq_some_iff, hc, Option.some.injEq, integer] at tie
  · refine iff_of_false ?_ (by omega)
    rintro rfl
    have far : (2 : ℚ) ^ 63 + 2 ^ 10 < n := by exact_mod_cast far
    rw [abs_of_nonpos (by linarith : (2 : ℚ) ^ 63 - n ≤ 0)] at above
    rcases le_total (2 ^ 63 + 2 ^ 11 : ℚ) n with passed | before
    · linarith [nearest.le_of_le isDouble_next passed]
    · rw [abs_of_nonneg (by linarith)] at above
      linarith

end UsageBoard.Decimal
