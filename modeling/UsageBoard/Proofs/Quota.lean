import UsageBoard.Proofs.Decimal.Places
import UsageBoard.Quota

/-!
# Amounts of quota

An amount with some decimals is never shown as less than the smallest one that they can show, unless there is
nothing left of the quotient that it is.

## Main statements

* `nearPower_powerFrom`: how near the power of ten is that is computed by repeated squaring.
* `fixed_smallest`: the smallest amount is written as one unit of the last place.
* `denotesZero_placed`: which texts are read as zero.
* `render_of_positive`: what a positive quota is shown as.
-/

namespace UsageBoard

open UsageBoard.Decimal

/-! ## Powers of ten -/

theorem least_of_errors {errors : ℕ} (few : errors ≤ 300) : 99 / 100 ≤ (1 - roundoff) ^ errors := by
  obtain ⟨positive, small⟩ := roundoff_bounds
  have count : (errors : ℚ) ≤ 300 := by exact_mod_cast few
  have bernoulli := one_add_mul_le_pow (a := -roundoff) (by linarith) errors
  rw [← sub_eq_add_neg] at bernoulli
  nlinarith

theorem most_of_errors {errors : ℕ} (few : errors ≤ 300) : (1 + roundoff) ^ errors ≤ 100 / 99 := by
  obtain ⟨positive, small⟩ := roundoff_bounds
  have least := least_of_errors few
  have product : (1 - roundoff) ^ errors * (1 + roundoff) ^ errors ≤ 1 := by
    rw [← mul_pow]
    exact pow_le_one₀ (by nlinarith) (by nlinarith)
  rw [le_div_iff₀ (by norm_num)]
  nlinarith [pow_nonneg (by linarith : 0 ≤ 1 + roundoff) errors]

/-- A number is a power of ten up to so many roundings. -/
def NearPower (errors exponent : ℕ) (x : Float) : Prop :=
  ∃ c, exactValue x = some c ∧ 10 ^ exponent * (1 - roundoff) ^ errors ≤ c ∧
    c ≤ 10 ^ exponent * (1 + roundoff) ^ errors

theorem ten_pow_le {exponent : ℕ} (small : exponent ≤ 300) : (10 : ℚ) ^ exponent ≤ 2 ^ (1000 : ℤ) := by
  have whole : 10 ^ 300 ≤ 2 ^ 1000 := by decide +kernel
  calc (10 : ℚ) ^ exponent ≤ 10 ^ 300 := pow_le_pow_right₀ (by norm_num) small
    _ ≤ 2 ^ (1000 : ℤ) := by exact_mod_cast whole

/-- A rounding adds one error. -/
theorem nearPower_of_roundsTo {v : ℚ} {x : Float} {errors exponent : ℕ} (rounds : RoundsTo v x)
    (few : errors ≤ 300) (small : exponent ≤ 300) (low : 10 ^ exponent * (1 - roundoff) ^ errors ≤ v)
    (high : v ≤ 10 ^ exponent * (1 + roundoff) ^ errors) : NearPower (errors + 1) exponent x := by
  obtain ⟨positive, part⟩ := roundoff_bounds
  have least : 2 ^ (-1022 : ℤ) ≤ v :=
    calc (2 : ℚ) ^ (-1022 : ℤ) ≤ 2 ^ (-1 : ℤ) := zpow_le_zpow_right₀ one_le_two (by norm_num)
      _ ≤ 1 * (99 / 100) := by norm_num
      _ ≤ 10 ^ exponent * (1 - roundoff) ^ errors := by
          gcongr
          · exact one_le_pow₀ (by norm_num)
          · exact least_of_errors few
      _ ≤ v := low
  have most : v ≤ 2 ^ (1023 : ℤ) :=
    calc v ≤ 10 ^ exponent * (1 + roundoff) ^ errors := high
      _ ≤ 2 ^ (1000 : ℤ) * 2 := by
          gcongr
          · exact ten_pow_le small
          · exact (most_of_errors few).trans (by norm_num)
      _ = 2 ^ ((1000 : ℤ) + 1) := (zpow_add_one₀ two_ne_zero _).symm
      _ ≤ 2 ^ (1023 : ℤ) := zpow_le_zpow_right₀ one_le_two (by norm_num)
  obtain ⟨c, hc, above, below⟩ := rounds.exists_near least most
  refine ⟨c, hc, ?_, ?_⟩
  · rw [pow_succ, ← mul_assoc]
    exact (mul_le_mul_of_nonneg_right low (by linarith)).trans above
  · rw [pow_succ, ← mul_assoc]
    exact below.trans (mul_le_mul_of_nonneg_right high (by linarith))

/-- A product has the errors of its factors and one more. -/
theorem NearPower.mul {k i k' i' : ℕ} {x y : Float} (hx : NearPower k i x) (hy : NearPower k' i' y)
    (exponents : i + i' ≤ 300) (errors : k + k' ≤ 300) : NearPower (k + k' + 1) (i + i') (x * y) := by
  obtain ⟨a, ha, aboveA, belowA⟩ := hx
  obtain ⟨b, hb, aboveB, belowB⟩ := hy
  obtain ⟨positive, small⟩ := roundoff_bounds
  have part : 0 < 1 - roundoff := by linarith
  have factorA : 0 ≤ a := le_trans (by positivity) aboveA
  have factorB : 0 ≤ b := le_trans (by positivity) aboveB
  apply nearPower_of_roundsTo (roundsTo_mul ha hb factorA factorB) errors exponents
  · rw [pow_add, pow_add, mul_mul_mul_comm]
    gcongr
  · rw [pow_add, pow_add, mul_mul_mul_comm]
    gcongr

theorem nearPower_one : NearPower 0 0 1.0 :=
  ⟨(1 : ℤ), whole?_eq_some_iff.mp (by decide +kernel), by simp, by simp⟩

theorem nearPower_ten : NearPower 0 1 10.0 :=
  ⟨(10 : ℤ), whole?_eq_some_iff.mp (by decide +kernel), by simp, by simp⟩

theorem powerFrom_succ (steps : ℕ) (result base : Float) (exponent : ℕ) :
    powerFrom (steps + 1) result base exponent =
      if exponent / 2 = 0 then if exponent % 2 = 1 then result * base else result
      else powerFrom steps (if exponent % 2 = 1 then result * base else result) (base * base) (exponent / 2) :=
  rfl

/-- Each digit of the exponent costs the base one rounding, and the result another one if it is set. -/
theorem nearPower_powerFrom {steps exponent i j : ℕ} {result base : Float} (digits : exponent < 2 ^ steps)
    (range : i + (j + 1) * exponent ≤ 300) (hr : NearPower i i result) (hb : NearPower j (j + 1) base) :
    NearPower (i + (j + 1) * exponent) (i + (j + 1) * exponent) (powerFrom steps result base exponent) := by
  induction steps generalizing exponent i j result base with
  | zero =>
      rw [pow_zero, Nat.lt_one_iff] at digits
      subst digits
      exact hr
  | succ steps ih =>
      obtain ⟨result', hresult⟩ : ∃ r, r = if exponent % 2 = 1 then result * base else result := ⟨_, rfl⟩
      have parts : i + (j + 1) * exponent = i + (j + 1) * (exponent % 2) + (2 * j + 1 + 1) * (exponent / 2) := by
        nth_rewrite 1 [← Nat.mod_add_div exponent 2]
        ring
      have hr' : NearPower (i + (j + 1) * (exponent % 2)) (i + (j + 1) * (exponent % 2)) result' := by
        rw [hresult]
        split
        · rename_i odd
          rw [odd, mul_one] at parts ⊢
          exact hr.mul hb (by omega) (by omega)
        · rename_i even
          rw [Nat.mod_two_ne_one.mp even]
          exact hr
      rw [powerFrom_succ, ← hresult, parts]
      split
      · rename_i last
        rwa [last, mul_zero, add_zero]
      · rename_i more
        have square : 2 * j + 1 + 1 ≤ (2 * j + 1 + 1) * (exponent / 2) :=
          Nat.le_mul_of_pos_right _ (Nat.pos_of_ne_zero more)
        have hb' : NearPower (2 * j + 1) (2 * j + 1 + 1) (base * base) := by
          convert hb.mul hb (by omega) (by omega) using 1 <;> omega
        exact ih (by rw [pow_succ] at digits; omega) (by omega) hr' hb'

namespace QuotaFormat

/-! ## The smallest amount -/

theorem exactValue_one : exactValue 1.0 = some 1 := by
  have whole : exactValue 1.0 = some ((1 : ℤ) : ℚ) := whole?_eq_some_iff.mp (by decide +kernel)
  rwa [Int.cast_one] at whole

variable {digits : ℕ} {p : ℚ}

theorem one_div_near (few : digits ≤ 300) (least : 10 ^ digits * (1 - roundoff) ^ digits ≤ p)
    (most : p ≤ 10 ^ digits * (1 + roundoff) ^ digits) :
    0 < p ∧ 99 / 100 ≤ 1 / p * 10 ^ digits ∧ 1 / p * 10 ^ digits ≤ 100 / 99 := by
  have unit : (0 : ℚ) < 10 ^ digits := by positivity
  have low : 10 ^ digits * (99 / 100) ≤ p :=
    le_trans (mul_le_mul_of_nonneg_left (least_of_errors few) unit.le) least
  have high : p ≤ 10 ^ digits * (100 / 99) :=
    most.trans (mul_le_mul_of_nonneg_left (most_of_errors few) unit.le)
  have size : 0 < p := by linarith
  rw [one_div_mul_eq_div, le_div_iff₀ size, div_le_iff₀ size]
  refine ⟨size, ?_, ?_⟩ <;> linarith

theorem one_div_range (few : digits ≤ 300) (above : 99 / 100 ≤ p * 10 ^ digits)
    (below : p * 10 ^ digits ≤ 100 / 99) : 2 ^ (-1022 : ℤ) ≤ p ∧ p ≤ 2 ^ (1023 : ℤ) := by
  have unit : (1 : ℚ) ≤ 10 ^ digits := one_le_pow₀ (by norm_num)
  have positive : 0 < p := pos_of_mul_pos_left (by linarith) (by positivity)
  constructor
  · have top : (1 : ℚ) ≤ p * 2 ^ ((1000 : ℤ) + 1) :=
      calc (1 : ℚ) ≤ p * 10 ^ digits * 2 := by linarith
        _ ≤ p * 2 ^ (1000 : ℤ) * 2 :=
            mul_le_mul_of_nonneg_right (mul_le_mul_of_nonneg_left (ten_pow_le few) positive.le) two_pos.le
        _ = p * 2 ^ ((1000 : ℤ) + 1) := by rw [zpow_add_one₀ two_ne_zero, mul_assoc]
    calc (2 : ℚ) ^ (-1022 : ℤ) ≤ 2 ^ (-((1000 : ℤ) + 1)) := zpow_le_zpow_right₀ one_le_two (by norm_num)
      _ ≤ p := by
          rw [zpow_neg, inv_le_iff_one_le_mul₀ (by positivity)]
          exact top
  · calc p ≤ p * 10 ^ digits := le_mul_of_one_le_right positive.le unit
      _ ≤ 2 ^ (1 : ℤ) := below.trans (by norm_num)
      _ ≤ 2 ^ (1023 : ℤ) := zpow_le_zpow_right₀ one_le_two (by norm_num)

/-- The reciprocal of a power that is computed with so few errors is the unit of the last place but for a small
part of it. -/
theorem exactValue_smallest (few : digits ≤ 300) :
    ∃ c, exactValue (smallest digits) = some c ∧ |c * 10 ^ digits - 1| ≤ 1 / 4 ∧
      isNegative (smallest digits) = false := by
  obtain ⟨p, hp, least, most⟩ := nearPower_powerFrom (i := 0) (j := 0) Nat.lt_log2_self
    (by omega : 0 + (0 + 1) * digits ≤ 300) nearPower_one nearPower_ten
  rw [zero_add, zero_add, one_mul] at least most
  obtain ⟨size, above, below⟩ := one_div_near few least most
  obtain ⟨normal, finite⟩ := one_div_range few above below
  obtain ⟨c, hc, fromBelow, fromAbove⟩ :=
    (roundsTo_div exactValue_one hp zero_le_one size).exists_near normal finite
  refine ⟨c, hc, ?_, isNegative_div exactValue_one hp one_pos size⟩
  have unit : (0 : ℚ) < 10 ^ digits := by positivity
  have shrunk : 1 / p * 10 ^ digits * (1 - roundoff) ≤ c * 10 ^ digits := by
    rw [mul_right_comm]
    exact mul_le_mul_of_nonneg_right fromBelow unit.le
  have grown : c * 10 ^ digits ≤ 1 / p * 10 ^ digits * (1 + roundoff) := by
    rw [mul_right_comm]
    exact mul_le_mul_of_nonneg_right fromAbove unit.le
  obtain ⟨positive, part⟩ := roundoff_bounds
  rw [abs_le]
  constructor <;> nlinarith

/-- The smallest amount is written as one unit of the last place. -/
theorem fixed_smallest (few : digits ≤ 300) :
    fixed digits (smallest digits) = String.ofList (placed 1 digits) := by
  obtain ⟨c, hc, near, plus⟩ := exactValue_smallest few
  obtain ⟨units, close, text⟩ := fixed_of_exactValue hc plus digits
  rw [← abs_of_pos (by positivity : (0 : ℚ) < 10 ^ digits), ← abs_mul] at close
  have same : |c * 10 ^ digits| = c * 10 ^ digits := abs_of_nonneg (by linarith [(abs_le.mp near).1])
  rw [same, abs_le] at close
  rw [abs_le] at near
  have least : (0 : ℚ) < units := by linarith
  have most : (units : ℚ) < 2 := by linarith
  have one : units = 1 := by
    have := Nat.cast_pos.mp least
    have : units < 2 := by exact_mod_cast most
    omega
  rw [text, one]

/-! ## Texts that are read as zero -/

theorem denotesZero_placed (units : ℕ) {places : ℕ} (few : places ≤ 300) :
    denotesZero (String.ofList (placed units places)) = true ↔ units = 0 := by
  obtain ⟨whole, fraction, parts, length, value⟩ := exists_isPlaced units places
  rw [denotesZero, parts.parse?, length, value]
  exact nearest_eq_zero_iff few

/-! ## What is shown -/

variable {format : QuotaFormat} {quota : Float} {c : ℚ}

theorem render_of_currency (currency : format.inCurrency = true) :
    format.render quota digits =
      "$" ++ if 0.0 < quota ∧ 0.0 < quota / format.perUnit ∧
          denotesZero (fixed digits (quota / format.perUnit)) = true
        then fixed digits (smallest digits) else fixed digits (quota / format.perUnit) := by
  rw [render, if_pos currency]
  dsimp only
  split <;> rfl

/-- A finite amount is shown as the nearest multiple of the smallest one, and as nothing only if it is nothing. -/
theorem render_of_exactValue (currency : format.inCurrency = true) (positive : 0.0 < quota)
    (amount : exactValue (quota / format.perUnit) = some c) (plus : isNegative (quota / format.perUnit) = false)
    (nonneg : 0 ≤ c) (few : digits ≤ 300) :
    ∃ units : ℕ, |(units : ℚ) - c * 10 ^ digits| ≤ 1 / 2 ∧
      format.render quota digits =
        "$" ++ String.ofList (placed (if c = 0 then 0 else max 1 units) digits) := by
  obtain ⟨units, close, text⟩ := fixed_of_exactValue amount plus digits
  rw [abs_of_nonneg nonneg] at close
  refine ⟨units, close, ?_⟩
  rw [render_of_currency currency, text]
  simp only [positive, true_and, pos_iff amount, denotesZero_placed units few]
  rcases nonneg.eq_or_lt with rfl | some_left
  · have none : units = 0 := by
      rw [zero_mul, sub_zero, abs_le] at close
      have : (units : ℚ) < 1 := by linarith
      exact Nat.lt_one_iff.mp (by exact_mod_cast this)
    rw [if_neg (fun h => lt_irrefl _ h.1), if_pos rfl, none]
  · rw [if_neg some_left.ne']
    split
    · rename_i zero
      rw [fixed_smallest few, zero.2]
      rfl
    · rename_i nonzero
      rw [max_eq_right (Nat.pos_of_ne_zero fun none => nonzero ⟨some_left, none⟩)]

/-- An infinite amount is named. -/
theorem render_of_isInf (currency : format.inCurrency = true) (infinite : (quota / format.perUnit).isInf = true)
    (plus : isNegative (quota / format.perUnit) = false) : format.render quota digits = "$" ++ "inf" := by
  rw [render_of_currency currency, fixed_of_isInf infinite plus, if_neg]
  rintro ⟨-, -, zero⟩
  exact absurd zero (by decide +kernel)

theorem denotes_zero_iff (units places : ℕ) :
    (∃ places', Denotes (String.ofList (placed units places)) places' 0) ↔ units = 0 := by
  have denoted := denotes_placed units places
  constructor
  · rintro ⟨_, zero⟩
    have value := (denoted.unique zero).2
    rw [div_eq_zero_iff, or_iff_left (by positivity)] at value
    exact_mod_cast value
  · rintro rfl
    exact ⟨places, by simpa using denoted⟩

/-- A text shows a quotient with some decimals.  It is zero just if no more is left than half the least number, and
otherwise the multiple of the smallest amount that is nearest to the number the quotient is rounded to, but at
least this amount. -/
structure ShowsQuotient (text : String) (digits : ℕ) (amount : Float) (quotient : ℚ) : Prop where
  read : denotesZero text = true ↔ quotient ≤ 2 ^ (-1075 : ℤ)
  denoted : (∃ places, Denotes text places 0) ↔ quotient ≤ 2 ^ (-1075 : ℤ)
  least : 2 ^ (-1075 : ℤ) < quotient → quotient * 10 ^ digits ≤ 1 / 2 → Denotes text digits (1 / 10 ^ digits)
  nearest : 2 ^ (-1075 : ℤ) < quotient → ∀ c, exactValue amount = some c →
    ∃ units : ℕ, |(units : ℚ) - c * 10 ^ digits| ≤ 1 / 2 ∧
      Denotes text digits ((max 1 units : ℕ) / 10 ^ digits)
  infinite : exactValue amount = none → text = "inf"

variable {amount : Float} {quotient : ℚ}

theorem showsQuotient_of_exactValue {units : ℕ} (few : digits ≤ 300) (hc : exactValue amount = some c)
    (rounded : IsNearest quotient c) (zero : c = 0 ↔ quotient ≤ 2 ^ (-1075 : ℤ))
    (close : |(units : ℚ) - c * 10 ^ digits| ≤ 1 / 2) :
    ShowsQuotient (String.ofList (placed (if c = 0 then 0 else max 1 units) digits)) digits amount quotient := by
  have none_shown : (if c = 0 then 0 else max 1 units) = 0 ↔ quotient ≤ 2 ^ (-1075 : ℤ) := by
    rw [← zero]
    split <;> simp_all
  have shown (some_left : 2 ^ (-1075 : ℤ) < quotient) :
      Denotes (String.ofList (placed (if c = 0 then 0 else max 1 units) digits)) digits
        ((max 1 units : ℕ) / 10 ^ digits) := by
    rw [if_neg fun none => absurd (zero.mp none) (not_le.mpr some_left)]
    exact denotes_placed _ digits
  refine ⟨(denotesZero_placed _ few).trans none_shown, (denotes_zero_iff _ _).trans none_shown, ?_, ?_, ?_⟩
  · intro some_left small
    have twice := mul_le_mul_of_nonneg_right (rounded.le_two_mul some_left)
      (by positivity : (0 : ℚ) ≤ 10 ^ digits)
    have below : (units : ℚ) < 2 := by linarith [(abs_le.mp close).2]
    have one : max 1 units = 1 := max_eq_left (Nat.lt_succ_iff.mp (by exact_mod_cast below))
    simpa only [one, Nat.cast_one] using shown some_left
  · intro some_left c' same
    obtain rfl := Option.some.inj (hc.symm.trans same)
    exact ⟨units, close, shown some_left⟩
  · intro infinite
    exact absurd (hc.symm.trans infinite) (Option.some_ne_none c)

theorem showsQuotient_of_isInf (none : exactValue amount = none) (rounded : IsNearest quotient c)
    (large : realEnd ≤ c) (some_left : 2 ^ (-1075 : ℤ) < quotient) :
    ShowsQuotient "inf" digits amount quotient := by
  refine ⟨iff_of_false (by decide +kernel) (not_le.mpr some_left),
    iff_of_false ?_ (not_le.mpr some_left), ?_, ?_, fun _ => rfl⟩
  · rintro ⟨places, numeral, lexed, -⟩
    cases lexed
  · intro _ small
    have positive : 0 < quotient := lt_trans (by positivity) some_left
    have half : quotient ≤ 1 / 2 :=
      (le_mul_of_one_le_right positive.le (one_le_pow₀ (by norm_num))).trans small
    have inside : (1 : ℕ) < realEnd := natCast_lt_realEnd (by norm_num)
    rw [Nat.cast_one] at inside
    linarith [rounded.le_two_mul some_left]
  · intro _ c' same
    exact absurd (same.symm.trans none) (Option.some_ne_none c')

/-- A positive quota is shown as its quotient by the unit. -/
theorem render_of_positive (currency : format.inCurrency = true) (finite : quota.isFinite = true)
    (positive : 0.0 < quota) (finiteUnit : format.perUnit.isFinite = true) (positiveUnit : 0.0 < format.perUnit)
    (few : digits ≤ 300) :
    ∃ q u text, exactValue quota = some q ∧ exactValue format.perUnit = some u ∧
      format.render quota digits = "$" ++ text ∧
      ShowsQuotient text digits (quota / format.perUnit) (q / u) := by
  obtain ⟨q, hq⟩ := exists_exactValue finite
  obtain ⟨u, hu⟩ := exists_exactValue finiteUnit
  have size := (pos_iff hq).mp positive
  have sizeUnit := (pos_iff hu).mp positiveUnit
  have plus := isNegative_div hq hu size sizeUnit
  have zero := exactValue_div_eq_zero_iff hq hu size sizeUnit
  obtain ⟨c, nearest, result⟩ := roundsTo_div hq hu size.le sizeUnit
  split at result
  · obtain ⟨units, close, shown⟩ :=
      render_of_exactValue currency positive result plus nearest.double.nonneg few
    rw [result, Option.some.injEq] at zero
    exact ⟨q, u, _, hq, hu, shown, showsQuotient_of_exactValue few result nearest zero close⟩
  · rename_i large
    have some_left : 2 ^ (-1075 : ℤ) < q / u :=
      not_le.mp fun none => absurd ((zero.mpr none).symm.trans result.2) (Option.some_ne_none 0)
    exact ⟨q, u, "inf", hq, hu, render_of_isInf currency result.1 plus,
      showsQuotient_of_isInf result.2 nearest (not_lt.mp large) some_left⟩

/-- Ten units of quota are less than a cent at half a million to the dollar, and shown as a cent. -/
theorem render_of_ten_units : ∃ text, default.render 10.0 2 = "$" ++ text ∧ Denotes text 2 (1 / 10 ^ 2) := by
  have currency : default.inCurrency = true := rfl
  have finite : (10.0 : Float).isFinite = true := by decide +kernel
  have positive : (0.0 : Float) < 10.0 := by decide +kernel
  have few : 2 ≤ 300 := by norm_num
  obtain ⟨q, u, text, hq, hu, shown, quotient⟩ :=
    render_of_positive currency finite positive (by decide +kernel) (by decide +kernel) few
  have ten : exactValue 10.0 = some ((10 : ℤ) : ℚ) := whole?_eq_some_iff.mp (by decide +kernel)
  have unit : exactValue default.perUnit = some ((500000 : ℤ) : ℚ) := whole?_eq_some_iff.mp (by decide +kernel)
  obtain rfl := Option.some.inj (hq.symm.trans ten)
  obtain rfl := Option.some.inj (hu.symm.trans unit)
  refine ⟨text, shown, quotient.least ?_ (by norm_num)⟩
  calc (2 : ℚ) ^ (-1075 : ℤ) ≤ 2 ^ (-20 : ℤ) := zpow_le_zpow_right₀ one_le_two (by norm_num)
    _ < _ := by norm_num

/-- A quota can be so small that its quotient is no number but zero, and shown as zero. -/
theorem render_of_least_quota :
    (5e-324 : Float).isFinite = true ∧ 0.0 < (5e-324 : Float) ∧ default.perUnit.isFinite = true ∧
      0.0 < default.perUnit ∧ default.render 5e-324 6 = "$" ++ "0.000000" ∧
      denotesZero "0.000000" = true ∧ Denotes "0.000000" 6 0 := by
  refine ⟨by decide +kernel, by decide +kernel, by decide +kernel, by decide +kernel, by decide +kernel,
    by decide +kernel, ?_⟩
  have zero : String.ofList (placed 0 6) = "0.000000" := by decide +kernel
  simpa [zero] using denotes_placed 0 6

end QuotaFormat

end UsageBoard
