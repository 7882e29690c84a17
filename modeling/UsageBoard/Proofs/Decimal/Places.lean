import UsageBoard.Decimal.Fixed
import UsageBoard.Proofs.Decimal.Accuracy
import UsageBoard.Proofs.Json.Kept

/-!
# Numbers with a fixed number of places

A number is written as the multiple of the last place's unit that is nearest to its exact value.  The text is a
decimal that denotes this multiple, and it is read as zero only if the multiple is zero.

## Main statements

* `fixed_of_exactValue`: which multiple is written.
* `denotes_placed`: what the text denotes.
* `IsPlaced.parse?`, `nearest_eq_zero_iff`: what it is read as.
-/

namespace UsageBoard.Decimal

open UsageBoard.Json (Numeral)
open UsageBoard.Text (takeWhile_of_run)
open Float.Model.UnpackedFloat (Sign isNaN isInf)

variable {x : Float} {c : ℚ}

/-! ## Multiples of a unit -/

/-- A finite number has the magnitude that its bits stand for. -/
theorem exists_magnitude (hx : exactValue x = some c) :
    ∃ v, Magnitude.of x = .finite v ∧ (v.mantissa : ℚ) * 2 ^ v.exponent = |c| := by
  have size (sign : Sign) (m : ℕ) (e : ℤ) : |((sign.apply m : ℤ) : ℚ) * 2 ^ e| = m * 2 ^ e := by
    have unit : (0 : ℚ) < 2 ^ e := by positivity
    cases sign <;> simp [Sign.apply, abs_mul, abs_of_pos unit]
  have unpacked := unpack_eq x
  have nan : x.isNaN = x.toModel.unpack.isNaN := rfl
  have inf : x.isInf = x.toModel.unpack.isInf := rfl
  rw [exactValue] at hx
  unfold Magnitude.of Binary.ofBits
  rw [nan, inf]
  rw [unpacked] at hx ⊢
  generalize (if x.toBits >>> 63 == 1 then Sign.negative else Sign.positive) = sign at *
  generalize ((x.toBits >>> 52) &&& 0x7FF).toNat = biased at *
  generalize (x.toBits &&& 0xFFFFFFFFFFFFF).toNat = fraction at *
  unfold ofParts at hx ⊢
  split at hx
  · split at hx <;> cases hx
  · rename_i finite
    split at hx
    · rename_i low
      split at hx
      · rename_i zero
        obtain rfl := Option.some.inj hx
        exact ⟨⟨fraction, -1074, false⟩, by simp [low, zero, isNaN, isInf], by simp [zero]⟩
      · rename_i nonzero
        obtain rfl := Option.some.inj hx
        exact ⟨⟨fraction, -1074, false⟩, by simp [low, nonzero, isNaN, isInf], (size sign fraction _).symm⟩
    · rename_i normal
      obtain rfl := Option.some.inj hx
      refine ⟨⟨2 ^ 52 + fraction, biased - 1075, fraction == 0 && decide (1 < biased)⟩, ?_,
        (size sign (2 ^ 52 + fraction) (biased - 1075)).symm⟩
      simp [finite, normal, isNaN, isInf]

theorem roundedQuotient_cases (tie : Tie) (n d : ℕ) :
    (roundedQuotient tie n d = n / d ∧ 2 * (n % d) ≤ d) ∨
      (roundedQuotient tie n d = n / d + 1 ∧ d ≤ 2 * (n % d)) := by
  unfold roundedQuotient
  cases order : compare (2 * (n % d)) d with
  | lt => exact .inl ⟨rfl, (Nat.compare_eq_lt.mp order).le⟩
  | gt => exact .inr ⟨rfl, (Nat.compare_eq_gt.mp order).le⟩
  | eq =>
      have same := Nat.compare_eq_eq.mp order
      cases tie with
      | up => exact .inr ⟨rfl, same.ge⟩
      | toEven =>
          dsimp only
          split
          · exact .inl ⟨rfl, same.le⟩
          · exact .inr ⟨rfl, same.ge⟩

/-- The nearest natural number to a quotient is off by a half at most. -/
theorem abs_roundedQuotient_sub_le (tie : Tie) (n : ℕ) {d : ℕ} (positive : 0 < d) :
    |(roundedQuotient tie n d : ℚ) - n / d| ≤ 1 / 2 := by
  have size : (0 : ℚ) < d := by exact_mod_cast positive
  have whole : (n : ℚ) / d = (n / d : ℕ) + (n % d : ℕ) / d := by
    rw [div_eq_iff size.ne', add_mul, div_mul_cancel₀ _ size.ne']
    exact_mod_cast (Nat.div_add_mod' n d).symm
  have least : (0 : ℚ) ≤ (n % d : ℕ) / d := by positivity
  have most : ((n % d : ℕ) : ℚ) / d < 1 := by
    rw [div_lt_one size]
    exact_mod_cast Nat.mod_lt n positive
  rw [whole, abs_le]
  rcases roundedQuotient_cases tie n d with ⟨same, small⟩ | ⟨same, large⟩
  · have half : ((n % d : ℕ) : ℚ) / d ≤ 1 / 2 := by
      rw [div_le_div_iff₀ size two_pos]
      exact_mod_cast (by omega : n % d * 2 ≤ 1 * d)
    rw [same]
    constructor <;> linarith
  · have half : (1 : ℚ) / 2 ≤ (n % d : ℕ) / d := by
      rw [div_le_div_iff₀ two_pos size]
      exact_mod_cast (by omega : 1 * d ≤ n % d * 2)
    rw [same]
    push_cast
    constructor <;> linarith

theorem zpow_two_eq (e : ℤ) : (2 : ℚ) ^ e = 2 ^ e.toNat / 2 ^ (-e).toNat := by
  rw [← zpow_natCast, ← zpow_natCast, ← zpow_sub₀ two_ne_zero]
  congr 1
  omega

theorem abs_unitsAt_sub_le (v : Binary) (places : ℕ) :
    |(v.unitsAt places : ℚ) - v.mantissa * 2 ^ v.exponent * 10 ^ places| ≤ 1 / 2 := by
  have near := abs_roundedQuotient_sub_le .toEven (v.mantissa * 2 ^ v.exponent.toNat * 10 ^ places)
    (Nat.two_pow_pos (-v.exponent).toNat)
  have same : ((v.mantissa * 2 ^ v.exponent.toNat * 10 ^ places : ℕ) : ℚ) / (2 ^ (-v.exponent).toNat : ℕ) =
      v.mantissa * 2 ^ v.exponent * 10 ^ places := by
    rw [zpow_two_eq]
    push_cast
    ring
  rw [same] at near
  exact near

/-- A number is written as the nearest multiple. -/
theorem fixed_of_exactValue (hx : exactValue x = some c) (plus : isNegative x = false) (places : ℕ) :
    ∃ units : ℕ, |(units : ℚ) - |c| * 10 ^ places| ≤ 1 / 2 ∧
      fixed places x = String.ofList (placed units places) := by
  obtain ⟨v, magnitude, value⟩ := exists_magnitude hx
  refine ⟨v.unitsAt places, value ▸ abs_unitsAt_sub_le v places, ?_⟩
  rw [fixed, plus, magnitude]
  exact String.empty_append

theorem fixed_of_isInf (infinite : x.isInf = true) (plus : isNegative x = false) (places : ℕ) :
    fixed places x = "inf" := by
  have number : x.isNaN = false := by
    change x.toModel.unpack.isInf = true at infinite
    change x.toModel.unpack.isNaN = false
    cases hu : x.toModel.unpack <;> simp_all [isInf, isNaN]
  rw [fixed, plus, Magnitude.of, number, infinite]
  rfl

/-! ## Digits with a point -/

/-- Digits in two parts, of which the first has no needless zeros, with a point between them unless the second
is empty. -/
structure IsPlaced (cs whole fraction : List Char) : Prop where
  text : cs = whole ++ if fraction = [] then [] else '.' :: fraction
  digits : ∀ c ∈ whole ++ fraction, c.isDigit
  nonempty : whole ≠ []
  lead : whole.head? = some '0' → whole = ['0']

theorem digitsValue_replicate_append (k : ℕ) (digits : List Char) :
    digitsValue (List.replicate k '0' ++ digits) = digitsValue digits := by
  induction k with
  | zero => rfl
  | succ k ih => exact ih

theorem eq_of_head?_naturalDigits {n : ℕ} (zero : (naturalDigits n).head? = some '0') : naturalDigits n = ['0'] := by
  rcases Nat.eq_zero_or_pos n with rfl | positive
  · rfl
  · exact absurd zero (Json.head?_naturalDigits positive)

theorem isPlaced_naturalDigits (n : ℕ) : IsPlaced (naturalDigits n) (naturalDigits n) [] where
  text := by rw [if_pos rfl, List.append_nil]
  digits c h := Json.isDigit_of_mem_naturalDigits (by rwa [List.append_nil] at h)
  nonempty := Json.naturalDigits_ne_nil n
  lead := eq_of_head?_naturalDigits

/-- The digits in front of the point begin with a zero only if zeros had to be put there. -/
theorem take_eq_of_head? {n places zeros : ℕ} {padded : List Char}
    (hzeros : zeros = places + 1 - (naturalDigits n).length)
    (hpadded : padded = List.replicate zeros '0' ++ naturalDigits n)
    (zero : (padded.take (padded.length - places)).head? = some '0') :
    padded.take (padded.length - places) = ['0'] := by
  have length : padded.length = zeros + (naturalDigits n).length := by
    rw [hpadded, List.length_append, List.length_replicate]
  rcases Nat.eq_zero_or_pos zeros with none | some_zeros
  · -- without zeros in front, the digits are those of a number with more digits than places
    rw [none, List.replicate_zero, List.nil_append] at hpadded
    have first : padded.head? = some '0' := by
      rw [← zero, List.head?_take, if_neg (by omega)]
    rw [hpadded] at first
    have single := eq_of_head?_naturalDigits first
    have none_after : places = 0 := by
      rw [none, single, List.length_singleton] at hzeros
      omega
    rw [hpadded, single, none_after]
    rfl
  · have one : padded.length - places = 1 := by omega
    obtain ⟨k, rfl⟩ := Nat.exists_eq_succ_of_ne_zero some_zeros.ne'
    rw [one, hpadded]
    rfl

theorem exists_isPlaced_pointed (n : ℕ) {places : ℕ} (some_places : 0 < places) :
    ∃ whole fraction, IsPlaced (pointed (naturalDigits n) places) whole fraction ∧ fraction.length = places ∧
      digitsValue (whole ++ fraction) = n := by
  obtain ⟨zeros, hzeros⟩ : ∃ k, k = places + 1 - (naturalDigits n).length := ⟨_, rfl⟩
  obtain ⟨padded, hpadded⟩ : ∃ cs, cs = List.replicate zeros '0' ++ naturalDigits n := ⟨_, rfl⟩
  have long : places + 1 ≤ padded.length := by
    rw [hpadded, List.length_append, List.length_replicate]
    omega
  have digits : ∀ c ∈ padded, c.isDigit := by
    intro c h
    rw [hpadded] at h
    rcases List.mem_append.mp h with h | h
    · rw [List.eq_of_mem_replicate h]
      rfl
    · exact Json.isDigit_of_mem_naturalDigits h
  have length : (padded.drop (padded.length - places)).length = places := by
    rw [List.length_drop]
    omega
  have parts := List.take_append_drop (padded.length - places) padded
  refine ⟨padded.take (padded.length - places), padded.drop (padded.length - places),
    ⟨?_, ?_, ?_, take_eq_of_head? hzeros hpadded⟩, length, ?_⟩
  · rw [if_neg (by rintro none; rw [none] at length; exact some_places.ne length), pointed, ← hzeros, ← hpadded]
  · rwa [parts]
  · rintro none
    have := congrArg List.length none
    rw [List.length_take, List.length_nil] at this
    omega
  · rw [parts, hpadded, digitsValue_replicate_append, Json.digitsValue_naturalDigits]

theorem exists_isPlaced (units places : ℕ) :
    ∃ whole fraction, IsPlaced (placed units places) whole fraction ∧ fraction.length = places ∧
      digitsValue (whole ++ fraction) = units := by
  rw [placed]
  split
  · rename_i none
    refine ⟨_, [], isPlaced_naturalDigits units, none.symm, ?_⟩
    rw [List.append_nil, Json.digitsValue_naturalDigits]
  · rename_i some_places
    exact exists_isPlaced_pointed units (Nat.pos_of_ne_zero some_places)

variable {cs whole fraction : List Char}

/-! ## What a text denotes -/

/-- A text is a decimal with a number of places and a value. -/
def Denotes (text : String) (places : ℕ) (value : ℚ) : Prop :=
  ∃ numeral, Numeral.lex text.toList = some (numeral, []) ∧ numeral.exponent = none ∧
    numeral.fraction.length = places ∧ numeral.value = value

theorem Denotes.unique {text : String} {places places' : ℕ} {value value' : ℚ} (one : Denotes text places value)
    (other : Denotes text places' value') : places = places' ∧ value = value' := by
  obtain ⟨numeral, lexed, -, rfl, rfl⟩ := one
  obtain ⟨numeral', lexed', -, rfl, rfl⟩ := other
  obtain ⟨rfl, -⟩ := Prod.mk.inj (Option.some.inj (lexed.symm.trans lexed'))
  exact ⟨rfl, rfl⟩

namespace IsPlaced

theorem exists_cons (h : IsPlaced cs whole fraction) : ∃ c rest, cs = c :: rest ∧ c.isDigit := by
  obtain ⟨c, rest, hwhole⟩ := List.exists_cons_of_ne_nil h.nonempty
  refine ⟨c, rest ++ if fraction = [] then [] else '.' :: fraction, ?_, h.digits c (by simp [hwhole])⟩
  rw [h.text, hwhole, List.cons_append]

theorem takeWhile (h : IsPlaced cs whole fraction) :
    cs.takeWhile Char.isDigit = whole ∧
      cs.dropWhile Char.isDigit = if fraction = [] then [] else '.' :: fraction := by
  rw [h.text]
  refine takeWhile_of_run (fun c there => h.digits c (List.mem_append_left _ there)) fun c there => ?_
  split at there
  · cases there
  · obtain rfl := Option.some.inj there
    rfl

theorem lexWhole (h : IsPlaced cs whole fraction) :
    Json.lexWhole cs = some (whole, if fraction = [] then [] else '.' :: fraction) := by
  obtain ⟨taken, dropped⟩ := h.takeWhile
  rw [Json.lexWhole, taken, dropped]
  split
  · exact absurd rfl h.nonempty
  · rw [h.text]
    rfl
  · rename_i rest other
    exact absurd (List.cons.inj (h.lead rfl)).2 other
  · rfl

theorem lexFraction (h : IsPlaced cs whole fraction) :
    Json.lexFraction (if fraction = [] then [] else '.' :: fraction) = some (fraction, []) := by
  have digits : ∀ c ∈ fraction, c.isDigit := fun c there => h.digits c (List.mem_append_right _ there)
  cases fraction with
  | nil => rfl
  | cons c rest =>
      rw [if_neg (List.cons_ne_nil c rest), Json.lexFraction, List.takeWhile_eq_self_iff.mpr digits,
        List.dropWhile_eq_nil_iff.mpr digits]

theorem lex (h : IsPlaced cs whole fraction) : Numeral.lex cs = some (⟨false, whole, fraction, none⟩, []) := by
  obtain ⟨c, rest, hcs, digit⟩ := h.exists_cons
  have unsigned : Json.unsignedPart cs = (false, cs) := by
    rw [hcs, Json.unsignedPart]
    rintro _ same
    rw [(List.cons.inj same).1] at digit
    cases digit
  rw [Numeral.lex_eq_some_iff, unsigned]
  exact ⟨_, _, h.lexWhole, h.lexFraction, rfl, rfl⟩

end IsPlaced

theorem denotes_placed (units places : ℕ) :
    Denotes (String.ofList (placed units places)) places (units / 10 ^ places) := by
  obtain ⟨whole, fraction, parts, length, value⟩ := exists_isPlaced units places
  refine ⟨_, by rw [String.toList_ofList]; exact parts.lex, rfl, length, ?_⟩
  rw [Numeral.value, if_neg Bool.false_ne_true, Numeral.size_eq, value, Numeral.power, zero_sub, zpow_neg,
    zpow_natCast, length, ← div_eq_mul_inv]

/-! ## What a text is read as -/

theorem toLower_of_isDigit {c : Char} (digit : c.isDigit) : c.toLower = c := by
  obtain ⟨-, most⟩ := Char.isDigit_iff_toNat.mp digit
  rw [Char.toLower, dif_neg]
  rintro ⟨letter, -⟩
  exact absurd (letter.trans most) (by decide)

theorem IsPlaced.unsigned? (h : IsPlaced cs whole fraction) :
    unsigned? cs = some (nearest (digitsValue (whole ++ fraction)) (-fraction.length)) := by
  have digits : ∀ c ∈ fraction, c.isDigit := fun c there => h.digits c (List.mem_append_right _ there)
  obtain ⟨taken, dropped⟩ := h.takeWhile
  simp only [Decimal.unsigned?, taken, dropped]
  cases fraction with
  | nil => simp [h.nonempty, exponent?]
  | cons c rest =>
      simp only [if_neg (List.cons_ne_nil c rest), List.takeWhile_eq_self_iff.mpr digits,
        List.dropWhile_eq_nil_iff.mpr digits]
      simp [h.nonempty, exponent?]

theorem IsPlaced.parse? (h : IsPlaced cs whole fraction) :
    parse? (String.ofList cs) = some (nearest (digitsValue (whole ++ fraction)) (-fraction.length)) := by
  obtain ⟨c, rest, hcs, digit⟩ := h.exists_cons
  have other (d : Char) (letter : d.isDigit = false) : c ≠ d := by
    rintro rfl
    exact Bool.false_ne_true (letter.symm.trans digit)
  have unsigned : splitSign cs = (false, cs) := by
    rw [hcs, splitSign]
    · exact fun later same => other '-' rfl (List.cons.inj same).1
    · exact fun later same => other '+' rfl (List.cons.inj same).1
  have unnamed (d : Char) (later : List Char) (letter : d.isDigit = false) :
      String.ofList (cs.map Char.toLower) ≠ String.ofList (d :: later) := by
    intro same
    rw [String.ofList_inj, hcs, List.map_cons, toLower_of_isDigit digit] at same
    exact other d letter (List.cons.inj same).1
  rw [Decimal.parse?, String.toList_ofList, unsigned]
  dsimp only
  rw [if_neg (not_or.mpr ⟨unnamed 'i' _ rfl, unnamed 'i' _ rfl⟩), if_neg (unnamed 'n' _ rfl), h.unsigned?]
  rfl

theorem ne_zero_of_roundsTo {v : ℚ} (rounds : RoundsTo v x) (least : 2 ^ (-1074 : ℤ) ≤ v) : ¬(x == 0.0) = true := by
  obtain ⟨c, nearest, result⟩ := rounds
  split at result
  · have above := nearest.le_of_le (isDouble_zpow le_rfl) least
    rw [eq_zero_iff result]
    exact ((by positivity : (0 : ℚ) < 2 ^ (-1074 : ℤ)).trans_le above).ne'
  · have infinite := result.1
    change x.toModel.unpack.isInf = true at infinite
    change ¬Float.Model.UnpackedFloat.beq x.toModel.unpack (0.0 : Float).toModel.unpack = true
    have zero : (0.0 : Float).toModel.unpack = .zero .positive := rfl
    rw [zero]
    cases hu : x.toModel.unpack with
    | infinity sign => cases sign <;> exact Bool.false_ne_true
    | _ => simp [hu, isInf] at infinite

theorem least_le_of_places {n places : ℕ} (few : places ≤ 300) (nonzero : n ≠ 0) :
    (2 : ℚ) ^ (-1074 : ℤ) ≤ n / 10 ^ places := by
  have digit : (1 : ℚ) ≤ n := by exact_mod_cast Nat.pos_of_ne_zero nonzero
  have whole : 10 ^ 300 ≤ 2 ^ 1074 := by decide +kernel
  have power : (10 : ℚ) ^ places ≤ 2 ^ 1074 :=
    calc (10 : ℚ) ^ places ≤ 10 ^ 300 := pow_le_pow_right₀ (by norm_num) few
      _ ≤ 2 ^ 1074 := by exact_mod_cast whole
  rw [zpow_neg, zpow_ofNat, ← one_div]
  gcongr

/-- A decimal with no more than 300 places is not rounded to zero. -/
theorem nearest_eq_zero_iff {n places : ℕ} (few : places ≤ 300) :
    (nearest n (-places) == 0.0) = true ↔ n = 0 := by
  rw [nearest]
  split
  · rename_i zero
    exact iff_of_true (by decide +kernel) zero
  · rename_i nonzero
    refine iff_of_false ?_ nonzero
    have least := least_le_of_places few nonzero
    rw [if_neg (by omega)]
    split
    · decide +kernel
    · rw [Int.natAbs_neg, Int.natAbs_natCast]
      rcases Nat.eq_zero_or_pos places with rfl | some_places
      · refine ne_zero_of_roundsTo (roundsTo_ofScientific n (Nat.zero_le 400)) ?_
        rwa [pow_zero, div_one, ← mul_one (n : ℚ), ← pow_zero 10] at least
      · rw [decide_eq_true (by omega)]
        exact ne_zero_of_roundsTo (roundsTo_ofScientific_fraction n some_places (by omega)) least

end UsageBoard.Decimal
