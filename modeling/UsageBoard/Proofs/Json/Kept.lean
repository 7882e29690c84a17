import UsageBoard.Document.Decoder
import UsageBoard.Proofs.Json.Numerals
import UsageBoard.Proofs.Json.Scaling

/-!
# Integers that are kept

A numeral is decoded as an integer through its node, which is an integer only if it is written as one, and a
floating point number otherwise.

## Main statements

* `Numeral.isKept_iff_of_plain`: an integer that is written out is kept, unless it is rounded to the least one
  of 64 bits.
* `Numeral.isKept_iff_of_few_digits`: a decimal of few digits is kept, unless it is an integer of more than 53
  significant bits.
* `Numeral.lenientInt64_eq_ok_iff_of_marked`: any decimal with a point or an exponent is decoded as the integer
  that its floating point number is.
-/

namespace UsageBoard.Json

open UsageBoard.Decimal (digitsFrom digitsValue signed ofInt whole? exactValue IsDouble)
open UsageBoard.Document (Node Decoder)

/-! ## The value of a numeral -/

namespace Numeral

variable {numeral : Numeral}

/-- The power of ten that a numeral is multiplied by. -/
def power (numeral : Numeral) : ℤ :=
  match numeral.exponent with
  | none => 0
  | some (negative, digits) => if negative then -(digitsValue digits : ℤ) else digitsValue digits

/-- The number that is written, without its sign. -/
def size (numeral : Numeral) : ℚ :=
  (digitsValue numeral.whole + digitsValue numeral.fraction / 10 ^ numeral.fraction.length) *
    10 ^ numeral.power

/-- The number that is written. -/
def value (numeral : Numeral) : ℚ := if numeral.negative then -numeral.size else numeral.size

/-- A numeral has neither a point nor an exponent. -/
def IsPlain (numeral : Numeral) : Prop := numeral.fraction = [] ∧ numeral.exponent = none

/-- The digits of a numeral are an integer that a floating point number holds, and its power of ten is not so
small that it is divided by more than once. -/
structure HasFewDigits (numeral : Numeral) : Prop where
  few : digitsValue (numeral.whole ++ numeral.fraction) < 2 ^ 53
  near : ∀ part ∈ numeral.exponent, digitsValue part.2 < exponentLimit
  low : -308 ≤ numeral.power - numeral.fraction.length

end Numeral

theorem digitsFrom_eq (n : ℕ) (digits : List Char) :
    digitsFrom n digits = n * 10 ^ digits.length + digitsValue digits := by
  induction digits generalizing n with
  | nil => simp [digitsFrom, digitsValue]
  | cons c digits ih =>
      have first (n : ℕ) : digitsFrom n (c :: digits) = digitsFrom (10 * n + (c.toNat - '0'.toNat)) digits := rfl
      rw [digitsValue, first, first, ih, ih (10 * 0 + _), List.length_cons, pow_succ]
      ring

theorem digitsValue_append (left right : List Char) :
    digitsValue (left ++ right) = digitsFrom (digitsValue left) right :=
  List.foldl_append

theorem Numeral.size_eq (numeral : Numeral) :
    numeral.size = (digitsValue (numeral.whole ++ numeral.fraction) : ℕ) *
      10 ^ (numeral.power - numeral.fraction.length) := by
  rw [size, digitsValue_append, digitsFrom_eq, zpow_sub₀ (by norm_num), zpow_natCast]
  push_cast
  field_simp

theorem isDigit_of_mem_whole {cs rest : List Char} {numeral : Numeral}
    (lexed : Numeral.lex cs = some (numeral, rest)) : ∀ c ∈ numeral.whole, c.isDigit := by
  obtain ⟨afterWhole, -, whole, -⟩ := Numeral.lex_eq_some_iff.mp lexed
  rw [lexWhole] at whole
  split at whole
  · cases whole
  · obtain ⟨whole, -⟩ := Prod.mk.inj (Option.some.inj whole)
    rw [← whole]
    exact fun c there => List.mem_singleton.mp there ▸ rfl
  · cases whole
  · obtain ⟨whole, -⟩ := Prod.mk.inj (Option.some.inj whole)
    rw [← whole]
    exact fun c there => List.mem_takeWhile_imp there

/-! ## Leading digits -/

theorem leading_of_lt {n : ℕ} {digits : List Char} (small : digitsFrom n digits < Words.uint64End) :
    leading n digits = (digitsFrom n digits, []) := by
  induction digits generalizing n with
  | nil => rfl
  | cons c digits ih =>
      have first : digitsFrom n (c :: digits) = digitsFrom (10 * n + (c.toNat - '0'.toNat)) digits := rfl
      rw [first] at small ⊢
      have shorter : 10 * n + (c.toNat - '0'.toNat) < Words.uint64End := by
        rw [digitsFrom_eq] at small
        exact lt_of_le_of_lt ((Nat.le_mul_of_pos_right _ (by positivity)).trans (Nat.le_add_right _ _)) small
      rw [leading, if_pos shorter, ih small]

/-- Digits that do not fit into a word fill it but for one digit. -/
theorem leading_of_ge {n : ℕ} {digits : List Char} (isDigits : ∀ c ∈ digits, c.isDigit)
    (word : n < Words.uint64End) (large : Words.uint64End ≤ digitsFrom n digits) :
    (leading n digits).1 < 2 ^ 64 ∧ 2 ^ 60 ≤ (leading n digits).1 ∧ (leading n digits).2 ≠ [] := by
  induction digits generalizing n with
  | nil => exact absurd large (by simpa [digitsFrom] using word)
  | cons c digits ih =>
      rw [leading]
      split
      · rename_i shorter
        exact ih (fun d there => isDigits d (List.mem_cons_of_mem _ there)) shorter large
      · rename_i longer
        have digit : c.toNat - '0'.toNat ≤ 9 :=
          Nat.sub_le_sub_right (Char.isDigit_iff_toNat.mp (isDigits c List.mem_cons_self)).2 _
        simp only [Words.uint64End] at word longer
        exact ⟨by omega, by omega, List.cons_ne_nil _ _⟩

/-! ## Readings -/

/-- An integer with or without a minus. -/
def signedInt (negative : Bool) (n : ℤ) : ℤ := if negative then -n else n

theorem whole?_signed {negative : Bool} {x : Float} {n : ℤ} :
    whole? (signed negative x) = some n ↔ whole? x = some (signedInt negative n) := by
  cases negative with
  | false => rfl
  | true =>
      rw [Decimal.whole?_eq_some_iff, Decimal.whole?_eq_some_iff, signed, if_pos rfl, Decimal.exactValue_neg,
        signedInt, if_pos rfl, Option.map_eq_some_iff]
      constructor
      · rintro ⟨a, ha, same⟩
        rw [ha, Int.cast_neg, ← same, neg_neg]
      · intro h
        exact ⟨_, h, by rw [Int.cast_neg, neg_neg]⟩

theorem bind_map_signed {negative : Bool} {found : Option Float} {n : ℤ} :
    (found.map (signed negative)).bind whole? = some n ↔
      found.bind whole? = some (signedInt negative n) := by
  cases found with
  | none => exact iff_of_false nofun nofun
  | some x => exact whole?_signed

theorem Reads.map_signed {found : Option Float} {c : ℚ} (reads : Reads found c) {negative : Bool} {n : ℤ}
    (word : signedInt negative n ≤ 2 ^ 63) :
    (found.map (signed negative)).bind whole? = some n ↔ c = signedInt negative n := by
  rw [bind_map_signed, reads]
  refine and_iff_right_of_imp fun same => same ▸ ?_
  calc ((signedInt negative n : ℤ) : ℚ) ≤ (2 ^ 63 : ℕ) := by exact_mod_cast word
    _ < Decimal.realEnd := Decimal.natCast_lt_realEnd (by decide)

theorem Numeral.value_eq_iff {numeral : Numeral} {n : ℤ} :
    numeral.value = n ↔ numeral.size = signedInt numeral.negative n := by
  rw [value, signedInt]
  cases numeral.negative with
  | false => rfl
  | true => rw [if_pos rfl, if_pos rfl, Int.cast_neg, neg_eq_iff_eq_neg]

theorem wholeNumber_eq_ok_iff {x : Float} {n : Int64} :
    Decoder.wholeNumber x = .ok n ↔ whole? x = some n.toInt := by
  rw [Decoder.wholeNumber]
  cases hwhole : whole? x with
  | none => exact iff_of_false nofun nofun
  | some k =>
      rw [Option.bind_some, Option.some.injEq, ← Words.int64?_eq_some_iff]
      cases Words.int64? k with
      | none => exact iff_of_false nofun nofun
      | some found => exact ⟨fun h => congrArg some (Except.ok.inj h), fun h => congrArg Except.ok (Option.some.inj h)⟩

/-- A numeral that is not written as an integer of 64 bits is read as a floating point number. -/
theorem lenientInt64_eq_ok_iff_of_other {numeral : Numeral} {found : Option Float} {depth : Nat} {n : Int64}
    (read : numeral.node = (found.map Node.real).getD .unusable) :
    Decoder.lenientInt64 depth numeral.node = .ok n ↔ found.bind whole? = some n.toInt := by
  rw [read]
  cases found with
  | none => exact iff_of_false nofun nofun
  | some x => exact wholeNumber_eq_ok_iff

/-! ## Numerals that are kept -/

/-- An integer has 53 significant bits at most. -/
def IsShort (n : ℤ) : Prop := ∃ k t : ℕ, k ≤ 2 ^ 53 ∧ n.natAbs = k * 2 ^ t

theorem isDouble_natAbs_iff {n : ℤ} : IsDouble n.natAbs ↔ IsShort n := by
  constructor
  · rintro ⟨k, t, bits, -, same⟩
    rcases le_or_gt 0 t with up | down
    · obtain ⟨t, rfl⟩ := Int.eq_ofNat_of_zero_le up
      exact ⟨k, t, bits, by exact_mod_cast same⟩
    · refine ⟨n.natAbs, 0, ?_, by rw [pow_zero, mul_one]⟩
      have less : (n.natAbs : ℚ) ≤ k := by
        rw [same]
        exact mul_le_of_le_one_right (by positivity) (zpow_le_one_of_nonpos₀ one_le_two down.le)
      exact le_trans (by exact_mod_cast less) bits
  · rintro ⟨k, t, bits, same⟩
    exact ⟨k, t, bits, by omega, by rw [same]; push_cast; rfl⟩

/-- A numeral is decoded as the integer that it denotes, and is not decoded if it denotes none of 64 bits. -/
def Numeral.IsKept (numeral : Numeral) : Prop :=
  ∀ (depth : Nat) (n : Int64),
    Decoder.lenientInt64 depth numeral.node = .ok n ↔ numeral.value = n.toInt

namespace Numeral

variable {numeral : Numeral}

theorem signedInt_le (negative : Bool) (n : Int64) : signedInt negative n.toInt ≤ 2 ^ 63 := by
  have low := n.le_toInt
  have high := n.toInt_lt
  cases negative with
  | false => exact high.le
  | true =>
      rw [signedInt, if_pos rfl]
      omega

theorem node_cases (numeral : Numeral) :
    (∃ k, numeral.node = .integer k) ∨ (∃ x, numeral.node = .real x) ∨ numeral.node = .unusable := by
  unfold node
  dsimp only
  split
  · exact .inl ⟨_, rfl⟩
  · split
    · exact .inl ⟨_, rfl⟩
    · split
      · exact .inr (.inl ⟨_, rfl⟩)
      · split
        · exact .inr (.inl ⟨_, rfl⟩)
        · exact .inr (.inr rfl)

theorem lenientInt64_depth (numeral : Numeral) (depth other : Nat) {n : Int64} :
    Decoder.lenientInt64 depth numeral.node = .ok n ↔ Decoder.lenientInt64 other numeral.node = .ok n := by
  rcases numeral.node_cases with ⟨k, read⟩ | ⟨x, read⟩ | read
  · rw [read, Decoder.lenientInt64, Decoder.lenientInt64]
  · rw [read, Decoder.lenientInt64, Decoder.lenientInt64]
  · rw [read]
    exact iff_of_false nofun nofun

/-- A numeral that is not an integer below the limit of words is read as a floating point number. -/
theorem node_of_real (other : ¬(numeral.IsPlain ∧ digitsValue numeral.whole < 2 ^ 64)) :
    numeral.node = (numeral.real?.map Node.real).getD .unusable := by
  rw [node, if_neg fun h => other ⟨h.1, h.2.2⟩, if_neg fun h => other ⟨h.1, h.2.2.2.trans_lt (by decide)⟩,
    if_neg fun h => other ⟨h.1, h.2⟩]
  cases numeral.real? <;> rfl

/-! ### Numerals of few digits -/

theorem real?_of_few_digits (short : numeral.HasFewDigits) :
    numeral.real? =
      (scaleReal 3 (ofInt (digitsValue (numeral.whole ++ numeral.fraction) : ℕ))
        (numeral.power - numeral.fraction.length)).map (signed numeral.negative) := by
  have total := digitsValue_append numeral.whole numeral.fraction
  have word : digitsFrom (digitsValue numeral.whole) numeral.fraction < Words.uint64End := by
    rw [← total]
    exact short.few.trans (by decide)
  have first : digitsFrom 0 numeral.whole < Words.uint64End := by
    refine lt_of_le_of_lt ?_ word
    rw [digitsFrom_eq (digitsValue numeral.whole)]
    exact (Nat.le_mul_of_pos_right _ (by positivity)).trans (Nat.le_add_right _ _)
  rw [real?, leading_of_lt first]
  dsimp only
  rw [← digitsValue, leading_of_lt word, ← total, power]
  have shift : ((([] : List Char).length : ℤ) - (numeral.fraction.length - ([] : List Char).length : ℕ)) =
      -numeral.fraction.length := by simp
  rw [shift]
  cases exponent : numeral.exponent with
  | none => simp
  | some part =>
      obtain ⟨negative, digits⟩ := part
      have small := short.near _ exponent
      have powers : (if negative then -(numeral.fraction.length : ℤ) - digitsValue digits
          else -(numeral.fraction.length : ℤ) + digitsValue digits) =
          (if negative then -(digitsValue digits : ℤ) else digitsValue digits) - numeral.fraction.length := by
        cases negative <;> simp <;> ring
      simp only [if_neg (not_le.mpr small), powers]

theorem size_nonneg (numeral : Numeral) : 0 ≤ numeral.size := by
  rw [size]
  positivity

theorem size_eq_natAbs {n : ℤ} (hn : numeral.value = n) : numeral.size = n.natAbs := by
  rw [value_eq_iff] at hn
  have nonneg : 0 ≤ signedInt numeral.negative n := by exact_mod_cast hn ▸ numeral.size_nonneg
  rw [hn, ← Int.cast_natCast, Int.cast_inj, Int.natCast_natAbs]
  unfold signedInt at nonneg ⊢
  split at nonneg
  · rw [if_pos ‹_›, abs_of_nonpos (by omega)]
  · rw [if_neg ‹_›, abs_of_nonneg nonneg]

/-- An integer below the limit is denoted by an integer of 64 bits, whatever its sign is. -/
theorem exists_value_eq {i : ℤ} (hi : numeral.size = i) (inside : numeral.size < 2 ^ 63) :
    ∃ n : Int64, numeral.value = n.toInt := by
  have low : 0 ≤ i := by exact_mod_cast hi ▸ numeral.size_nonneg
  have high : i < 2 ^ 63 := by exact_mod_cast hi ▸ inside
  refine ⟨Int64.ofInt (signedInt numeral.negative i), ?_⟩
  rw [value_eq_iff, hi]
  cases numeral.negative with
  | false => rw [signedInt, signedInt, if_neg (by decide), if_neg (by decide),
      Int64.toInt_ofInt_of_le (by omega) (by omega)]
  | true => rw [signedInt, signedInt, if_pos rfl, if_pos rfl, Int64.toInt_ofInt_of_le (by omega) (by omega), neg_neg]

theorem isKept_iff_of_marked (short : numeral.HasFewDigits) (marked : ¬numeral.IsPlain) :
    numeral.IsKept ↔ ∀ n : Int64, numeral.value = n.toInt → IsDouble numeral.size := by
  have read := node_of_real fun h => marked h.1
  obtain ⟨c, reading, reads⟩ := exists_isReading short.few short.low
  rw [← size_eq] at reading
  have decodes (depth : Nat) (n : Int64) : Decoder.lenientInt64 depth numeral.node = .ok n ↔
      c = signedInt numeral.negative n.toInt := by
    rw [lenientInt64_eq_ok_iff_of_other read, real?_of_few_digits short]
    exact reads.map_signed (signedInt_le _ n)
  constructor
  · intro kept n hn
    have same := (decodes 0 n).mp ((kept 0 n).mpr hn)
    rw [value_eq_iff, ← same] at hn
    exact hn ▸ reading.double
  · intro double depth n
    rw [decodes, value_eq_iff]
    have word : ((signedInt numeral.negative n.toInt : ℤ) : ℚ) ≤ 2 ^ 63 := by
      exact_mod_cast signedInt_le numeral.negative n
    rcases le_or_gt numeral.size (2 ^ 63) with fits | beyond
    · have exact (i : ℤ) (hi : numeral.size = i) : c = numeral.size := by
        refine reading.same i hi fits ?_
        rcases eq_or_lt_of_le fits with top | inside
        · exact top ▸ ⟨1, 63, by norm_num, by norm_num, by norm_num⟩
        · obtain ⟨n, hn⟩ := exists_value_eq hi inside
          exact double n hn
      constructor
      · intro same
        by_contra other
        by_cases whole : ∃ i : ℤ, numeral.size = i
        · obtain ⟨i, hi⟩ := whole
          exact other ((exact i hi).symm.trans same)
        · exact reading.fraction (fun i hi => whole ⟨i, hi⟩) _ same
      · intro same
        rw [exact _ same, same]
    · have above := reading.large beyond
      exact iff_of_false (by linarith) (by linarith)

/-! ### Plain numerals -/

theorem size_of_plain (plain : numeral.IsPlain) :
    numeral.size = digitsValue numeral.whole := by
  rw [size, power, plain.1, plain.2]
  simp [digitsValue, digitsFrom]

theorem lenientInt64_integer {k : ℤ} (low : -2 ^ 63 ≤ k) (high : k < 2 ^ 64) (depth : Nat) (n : Int64) :
    Decoder.lenientInt64 depth (.integer k) = .ok n ↔ k = n.toInt := by
  rw [Decoder.lenientInt64]
  cases fits : Words.int64? k with
  | some found =>
      rw [Words.int64?_eq_some_iff] at fits
      rw [fits, Int64.toInt_inj]
      exact ⟨Except.ok.inj, congrArg Except.ok⟩
  | none =>
      have outside (n : Int64) : k ≠ n.toInt := by
        rw [ne_eq, ← Words.int64?_eq_some_iff, fits]
        nofun
      have large : 2 ^ 63 ≤ k := by
        by_contra less
        exact outside (Int64.ofInt k) (Int64.toInt_ofInt_of_le low (by omega)).symm
      obtain ⟨word, rfl⟩ := Int.eq_ofNat_of_zero_le (by omega : 0 ≤ k)
      refine iff_of_false (fun found => ?_) (outside n)
      have above := Decimal.le_of_whole?_ofInt (by exact_mod_cast large) (by exact_mod_cast high)
        (wholeNumber_eq_ok_iff.mp found)
      have inside := n.toInt_lt
      omega

theorem value_of_plain (plain : numeral.IsPlain) :
    numeral.value = (signedInt numeral.negative (digitsValue numeral.whole) : ℤ) := by
  rw [Numeral.value, signedInt, size_of_plain plain]
  split <;> push_cast <;> rfl

/-- The negative integers that are rounded to the least one of 64 bits. -/
def RoundsToLeast (numeral : Numeral) : Prop :=
  -(2 ^ 63 + 2 ^ 10) ≤ numeral.value ∧ numeral.value < -2 ^ 63

theorem roundsToLeast_iff (plain : numeral.IsPlain) :
    numeral.RoundsToLeast ↔ numeral.negative ∧ 2 ^ 63 < digitsValue numeral.whole ∧
      digitsValue numeral.whole ≤ 2 ^ 63 + 2 ^ 10 := by
  have integers (v : ℤ) : (-(2 ^ 63 + 2 ^ 10) ≤ (v : ℚ) ∧ (v : ℚ) < -2 ^ 63) ↔
      -(2 ^ 63 + 2 ^ 10) ≤ v ∧ v < -2 ^ 63 := by
    exact_mod_cast Iff.rfl
  rw [RoundsToLeast, value_of_plain plain, integers]
  cases numeral.negative with
  | false => exact iff_of_false (by rw [signedInt, if_neg (by decide)]; omega) (by simp)
  | true =>
      simp only [signedInt, if_true, true_and]
      omega

theorem value_eq_intCast_iff (plain : numeral.IsPlain) {n : ℤ} :
    numeral.value = n ↔ signedInt numeral.negative (digitsValue numeral.whole) = n := by
  rw [value_of_plain plain, Int.cast_inj]

theorem isKept_of_integer (plain : numeral.IsPlain)
    (read : numeral.node = .integer (signedInt numeral.negative (digitsValue numeral.whole)))
    (low : -2 ^ 63 ≤ signedInt numeral.negative (digitsValue numeral.whole))
    (high : signedInt numeral.negative (digitsValue numeral.whole) < 2 ^ 64) : numeral.IsKept := by
  intro depth n
  rw [read, lenientInt64_integer low high, value_eq_intCast_iff plain]

theorem isKept_of_beyond (digits : ∀ c ∈ numeral.whole, c.isDigit)
    (plain : numeral.IsPlain) (beyond : 2 ^ 64 ≤ digitsValue numeral.whole) :
    numeral.IsKept := by
  have read : numeral.node = _ := node_of_real fun h => absurd beyond (not_le.mpr h.2)
  obtain ⟨word, long, some_left⟩ := leading_of_ge digits (by decide : 0 < Words.uint64End) beyond
  have scaled : numeral.real? =
      (scaleReal 3 (ofInt (leading 0 numeral.whole).1) (leading 0 numeral.whole).2.length).map
        (signed numeral.negative) := by
    rw [real?, plain.1, plain.2]
    simp [leading]
  intro depth n
  have inside := signedInt_le numeral.negative n
  rw [lenientInt64_eq_ok_iff_of_other read, scaled, bind_map_signed, value_eq_iff, size_of_plain plain]
  refine iff_of_false (fun found => ?_) fun same => ?_
  · have := lt_of_scaled word long (List.length_pos_of_ne_nil some_left) found
    omega
  · have same : (digitsValue numeral.whole : ℤ) = signedInt numeral.negative n.toInt := by exact_mod_cast same
    omega

/-- What is read where the integer of a minus and some digits has no node of its own. -/
theorem isKept_iff_of_real (plain : numeral.IsPlain)
    (negative : numeral.negative = true) (word : digitsValue numeral.whole < 2 ^ 64)
    (other : digitsValue numeral.whole = 0 ∨ 2 ^ 63 < digitsValue numeral.whole) :
    numeral.IsKept ↔ ∀ n : Int64, whole? (ofInt (digitsValue numeral.whole)) = some (-n.toInt) ↔
      -(digitsValue numeral.whole : ℤ) = n.toInt := by
  have read : numeral.node = .real (signed true (ofInt (digitsValue numeral.whole))) := by
    have first : ¬((numeral.fraction = [] ∧ numeral.exponent = none) ∧ numeral.negative ∧
        0 < digitsValue numeral.whole ∧ digitsValue numeral.whole ≤ Words.int64End) := by
      rintro ⟨-, -, positive, fits⟩
      simp only [Words.int64End] at fits
      omega
    rw [Numeral.node, if_neg (by simp [negative]), if_neg first, if_pos ⟨plain, word⟩, negative]
  have decodes (depth : Nat) (n : Int64) : Decoder.lenientInt64 depth numeral.node = .ok n ↔
      whole? (ofInt (digitsValue numeral.whole)) = some (-n.toInt) := by
    rw [read]
    exact wholeNumber_eq_ok_iff.trans whole?_signed
  have integer (n : Int64) : numeral.value = n.toInt ↔ -(digitsValue numeral.whole : ℤ) = n.toInt := by
    rw [value_eq_intCast_iff plain, negative]
    rfl
  simp only [IsKept, decodes, integer]
  exact ⟨fun kept n => kept 0 n, fun kept _ n => kept n⟩

/-- An integer with a minus, which is zero, one of 64 bits, or below those. -/
theorem isKept_iff_of_minus (plain : numeral.IsPlain) (negative : numeral.negative = true)
    (word : digitsValue numeral.whole < 2 ^ 64) :
    numeral.IsKept ↔ ¬(2 ^ 63 < digitsValue numeral.whole ∧ digitsValue numeral.whole ≤ 2 ^ 63 + 2 ^ 10) := by
  rcases Nat.lt_or_ge (2 ^ 63) (digitsValue numeral.whole) with large | fits
  · rw [isKept_iff_of_real plain negative word (.inr large), ← Decimal.whole?_ofInt_eq_top_iff large word,
      and_iff_right large]
    constructor
    · intro kept least
      have same := (kept Int64.minValue).mp (by rw [least]; rfl)
      have minimum : Int64.minValue.toInt = -2 ^ 63 := rfl
      omega
    · intro other n
      have low := n.le_toInt
      refine iff_of_false (fun found => other ?_) (by omega)
      have above := Decimal.le_of_whole?_ofInt large.le word found
      rw [found, show -n.toInt = 2 ^ 63 by omega]
  · refine iff_of_true ?_ fun h => absurd h.1 (by omega)
    rcases Nat.eq_zero_or_pos (digitsValue numeral.whole) with zero | positive
    · rw [isKept_iff_of_real plain negative word (.inl zero), zero]
      intro n
      rw [Decimal.whole?_eq_some_iff, Decimal.exactValue_ofInt (by norm_num), Option.some.injEq]
      norm_cast
      omega
    · have integer : signedInt numeral.negative (digitsValue numeral.whole) = -(digitsValue numeral.whole : ℤ) := by
        rw [negative, signedInt, if_pos rfl]
      refine isKept_of_integer plain ?_ (by omega) (by omega)
      rw [integer, Numeral.node]
      exact (if_neg (by simp [negative])).trans (if_pos ⟨plain, negative, positive, fits⟩)

/-- An integer that is written out is kept, unless it is rounded to the least one of 64 bits. -/
theorem isKept_iff_of_plain (digits : ∀ c ∈ numeral.whole, c.isDigit) (plain : numeral.IsPlain) :
    numeral.IsKept ↔ ¬numeral.RoundsToLeast := by
  rw [roundsToLeast_iff plain]
  rcases Nat.lt_or_ge (digitsValue numeral.whole) (2 ^ 64) with word | beyond
  · cases negative : numeral.negative with
    | false =>
        have integer : signedInt numeral.negative (digitsValue numeral.whole) = digitsValue numeral.whole := by
          rw [negative, signedInt, if_neg (by decide)]
        refine iff_of_true (isKept_of_integer plain ?_ (by omega) (by omega)) (by simp)
        rw [integer, Numeral.node]
        exact if_pos ⟨plain, negative, word⟩
    | true =>
        rw [isKept_iff_of_minus plain negative word]
        simp
  · exact iff_of_true (isKept_of_beyond digits plain beyond) (by omega)

/-- A number of few digits is kept, unless it is an integer that has too many bits. -/
theorem isKept_iff_of_few_digits (digits : ∀ c ∈ numeral.whole, c.isDigit) (short : numeral.HasFewDigits) :
    numeral.IsKept ↔ ∀ n : Int64, numeral.value = n.toInt → IsShort n.toInt := by
  have held (n : Int64) (hn : numeral.value = n.toInt) : IsDouble numeral.size ↔ IsShort n.toInt := by
    rw [size_eq_natAbs hn, isDouble_natAbs_iff]
  by_cases plain : numeral.IsPlain
  · have few := short.few
    rw [plain.1, List.append_nil] at few
    refine iff_of_true ((isKept_iff_of_plain digits plain).mpr ?_) fun n hn => (held n hn).mp ?_
    · rw [roundsToLeast_iff plain]
      omega
    · rw [size_of_plain plain]
      exact Decimal.isDouble_natCast few.le
  · rw [isKept_iff_of_marked short plain]
    exact forall_congr' fun n => forall_congr' fun hn => held n hn

/-- A number with a point or an exponent is decoded as the integer that its floating point number is. -/
theorem lenientInt64_eq_ok_iff_of_marked (marked : ¬numeral.IsPlain)
    {depth : Nat} {n : Int64} : Decoder.lenientInt64 depth numeral.node = .ok n ↔
      ∃ x, numeral.real? = some x ∧ exactValue x = some (n.toInt : ℚ) := by
  rw [lenientInt64_eq_ok_iff_of_other (node_of_real fun h => marked h.1), Option.bind_eq_some_iff]
  simp only [Decimal.whole?_eq_some_iff]

end Numeral

end UsageBoard.Json
