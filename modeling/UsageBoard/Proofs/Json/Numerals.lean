import UsageBoard.Proofs.Json.RoundTrip
import UsageBoard.Proofs.Outcome
import UsageBoard.Proofs.Text.Runs

/-!
# Numbers that are read as they are written

An integer of 64 bits is read from its digits.  Other numbers are written with a point or an exponent;
whether one of them is read as itself is a question about the number alone (`ReadsBack`), whatever
stands around it.

## Main statements

* `Numeral.lex_append`: a numeral is the same in front of any text that ends it.
* `spells_integerChars`: an integer of 64 bits is read as itself.
* `ReadsBack.spells`: so is a number that is read back from its own text.
-/

namespace UsageBoard.Json

open UsageBoard.Document (Node Reading Decoder DecodeError)
open UsageBoard.Decimal (digitsValue naturalDigits)
open UsageBoard.Text (takeWhile_append_of_stop)

/-! ## Numerals in front of other text -/

variable {rest : List Char}

theorem EndsNumber.takeWhile (ends : EndsNumber rest) (cs : List Char) :
    (cs ++ rest).takeWhile Char.isDigit = cs.takeWhile Char.isDigit :=
  (takeWhile_append_of_stop (fun c hc => (ends c hc).1) cs).1

theorem EndsNumber.dropWhile (ends : EndsNumber rest) (cs : List Char) :
    (cs ++ rest).dropWhile Char.isDigit = cs.dropWhile Char.isDigit ++ rest :=
  (takeWhile_append_of_stop (fun c hc => (ends c hc).1) cs).2

theorem lexWhole_append (ends : EndsNumber rest) {cs whole after : List Char}
    (read : lexWhole cs = some (whole, after)) : lexWhole (cs ++ rest) = some (whole, after ++ rest) := by
  rw [lexWhole, ends.takeWhile]
  rw [lexWhole] at read
  have nonempty : cs.takeWhile Char.isDigit ≠ [] := by
    intro h
    simp [h] at read
  have drop : (cs ++ rest).drop 1 = cs.drop 1 ++ rest := by
    cases cs with
    | nil => exact absurd rfl nonempty
    | cons c cs => rfl
  rw [ends.dropWhile, drop]
  split at read <;> simp_all

theorem lexFraction_append (ends : EndsNumber rest) {cs fraction after : List Char}
    (read : lexFraction cs = some (fraction, after)) :
    lexFraction (cs ++ rest) = some (fraction, after ++ rest) := by
  cases cs with
  | nil =>
      obtain ⟨rfl, rfl⟩ := Prod.mk.inj (Option.some.inj read)
      cases rest with
      | nil => rfl
      | cons c rest =>
          have hc : c ≠ '.' := (ends c rfl).2.1
          rw [List.nil_append, lexFraction]
          exact fun _ same => hc (List.cons.inj same).1
  | cons c cs =>
      by_cases hc : c = '.'
      · subst hc
        rw [List.cons_append, lexFraction, ends.takeWhile, ends.dropWhile]
        rw [lexFraction] at read
        split at read <;> simp_all
      · have plain : ∀ other : List Char, lexFraction (c :: other) = some ([], c :: other) := by
          intro other
          rw [lexFraction]
          exact fun _ same => hc (List.cons.inj same).1
        rw [plain] at read
        obtain ⟨rfl, rfl⟩ := Prod.mk.inj (Option.some.inj read)
        exact plain (cs ++ rest)

theorem splitSign_append {cs : List Char} (nonempty : cs ≠ []) (rest : List Char) :
    Decimal.splitSign (cs ++ rest) =
      ((Decimal.splitSign cs).1, (Decimal.splitSign cs).2 ++ rest) := by
  obtain ⟨c, cs, rfl⟩ := List.exists_cons_of_ne_nil nonempty
  by_cases hminus : c = '-'
  · subst hminus
    rfl
  · by_cases hplus : c = '+'
    · subst hplus
      rfl
    · have plain (other : List Char) : Decimal.splitSign (c :: other) = (false, c :: other) := by
        rw [Decimal.splitSign]
        · exact fun _ same => hminus (List.cons.inj same).1
        · exact fun _ same => hplus (List.cons.inj same).1
      rw [List.cons_append, plain, plain]
      rfl

theorem lexExponent_append (ends : EndsNumber rest) {cs after : List Char}
    {exponent : Option (Bool × List Char)} (read : lexExponent cs = some (exponent, after)) :
    lexExponent (cs ++ rest) = some (exponent, after ++ rest) := by
  cases cs with
  | nil =>
      obtain ⟨rfl, rfl⟩ := Prod.mk.inj (Option.some.inj read)
      cases rest with
      | nil => rfl
      | cons c rest =>
          have hc := (ends c rfl).2.2
          rw [List.nil_append, lexExponent, if_neg (by simp [hc])]
  | cons c cs =>
      rw [List.cons_append, lexExponent]
      rw [lexExponent] at read
      split at read
      · rename_i hc
        rw [if_pos hc]
        have nonempty : cs ≠ [] := by
          rintro rfl
          cases read
        simp only [splitSign_append nonempty, ends.takeWhile, ends.dropWhile]
        dsimp only at read
        split at read <;> simp_all
      · rename_i hc
        rw [if_neg hc]
        obtain ⟨rfl, rfl⟩ := Prod.mk.inj (Option.some.inj read)
        rfl

/-- The sign in front of a numeral, and what follows it. -/
def unsignedPart : List Char → Bool × List Char
  | '-' :: rest => (true, rest)
  | rest => (false, rest)

theorem Numeral.lex_eq_some_iff {cs rest : List Char} {numeral : Numeral} :
    Numeral.lex cs = some (numeral, rest) ↔ ∃ afterWhole afterFraction,
      lexWhole (unsignedPart cs).2 = some (numeral.whole, afterWhole) ∧
        lexFraction afterWhole = some (numeral.fraction, afterFraction) ∧
        lexExponent afterFraction = some (numeral.exponent, rest) ∧
        numeral.negative = (unsignedPart cs).1 := by
  have parts : Numeral.lex cs =
      (lexWhole (unsignedPart cs).2).bind fun first =>
        (lexFraction first.2).bind fun second =>
          (lexExponent second.2).bind fun third =>
            some (⟨(unsignedPart cs).1, first.1, second.1, third.1⟩, third.2) := rfl
  rw [parts]
  constructor
  · intro read
    obtain ⟨⟨whole, afterWhole⟩, hwhole, read⟩ := Option.bind_eq_some_iff.mp read
    obtain ⟨⟨fraction, afterFraction⟩, hfraction, read⟩ := Option.bind_eq_some_iff.mp read
    obtain ⟨⟨exponent, last⟩, hexponent, read⟩ := Option.bind_eq_some_iff.mp read
    obtain ⟨rfl, rfl⟩ := Prod.mk.inj (Option.some.inj read)
    exact ⟨afterWhole, afterFraction, hwhole, hfraction, hexponent, rfl⟩
  · rintro ⟨afterWhole, afterFraction, hwhole, hfraction, hexponent, hnegative⟩
    simp only [hwhole, hfraction, hexponent, ← hnegative, Option.bind_some]

theorem unsignedPart_append {cs : List Char} (nonempty : cs ≠ []) (rest : List Char) :
    unsignedPart (cs ++ rest) = ((unsignedPart cs).1, (unsignedPart cs).2 ++ rest) := by
  obtain ⟨c, cs, rfl⟩ := List.exists_cons_of_ne_nil nonempty
  by_cases hminus : c = '-'
  · subst hminus
    rfl
  · have plain (other : List Char) : unsignedPart (c :: other) = (false, c :: other) := by
      rw [unsignedPart]
      exact fun _ same => hminus (List.cons.inj same).1
    rw [List.cons_append, plain, plain]
    rfl

/-- A numeral is the same in front of any text that ends it. -/
theorem Numeral.lex_append (ends : EndsNumber rest) {cs after : List Char} {numeral : Numeral}
    (read : Numeral.lex cs = some (numeral, after)) :
    Numeral.lex (cs ++ rest) = some (numeral, after ++ rest) := by
  have nonempty : cs ≠ [] := by
    rintro rfl
    cases read
  obtain ⟨afterWhole, afterFraction, hwhole, hfraction, hexponent, hnegative⟩ :=
    Numeral.lex_eq_some_iff.mp read
  rw [Numeral.lex_eq_some_iff, unsignedPart_append nonempty]
  exact ⟨afterWhole ++ rest, afterFraction ++ rest, lexWhole_append ends hwhole,
    lexFraction_append ends hfraction, lexExponent_append ends hexponent, hnegative⟩

/-! ## Integers -/

theorem digitsValue_naturalDigits (n : Nat) : digitsValue (naturalDigits n) = n :=
  Nat.ofDigitChars_ten_toDigits

theorem isDigit_of_mem_naturalDigits {n : Nat} {c : Char} (h : c ∈ naturalDigits n) : c.isDigit :=
  Nat.isDigit_of_mem_toDigits (by decide) (by decide) h

theorem naturalDigits_ne_nil (n : Nat) : naturalDigits n ≠ [] := Nat.toDigits_ne_nil

theorem head?_naturalDigits {n : Nat} (positive : 0 < n) : (naturalDigits n).head? ≠ some '0' := by
  induction n using Nat.strongRecOn with
  | _ n ih =>
      rw [naturalDigits, Nat.toDigits_eq_if (by decide)]
      split
      · simp only [List.head?_cons, ne_eq, Option.some.injEq, Nat.digitChar_eq_zero]
        omega
      · obtain ⟨c, digits, hdigits⟩ := List.exists_cons_of_ne_nil (naturalDigits_ne_nil (n / 10))
        have earlier := ih (n / 10) (by omega) (by omega)
        rw [naturalDigits] at hdigits earlier
        rw [hdigits] at earlier ⊢
        exact earlier

theorem lexWhole_naturalDigits (n : Nat) : lexWhole (naturalDigits n) = some (naturalDigits n, []) := by
  have digits : ∀ c ∈ naturalDigits n, c.isDigit := fun c => isDigit_of_mem_naturalDigits
  rw [lexWhole, List.takeWhile_eq_self_iff.mpr digits, List.dropWhile_eq_nil_iff.mpr digits]
  rcases Nat.eq_zero_or_pos n with rfl | positive
  · rfl
  · have first := head?_naturalDigits positive
    have nonempty := naturalDigits_ne_nil n
    split <;> simp_all

/-- The numeral that is written for an integer. -/
def integerNumeral (n : Int) : Numeral := ⟨decide (n < 0), naturalDigits n.natAbs, [], none⟩

theorem unsignedPart_naturalDigits (n : Nat) : unsignedPart (naturalDigits n) = (false, naturalDigits n) := by
  obtain ⟨c, digits, hdigits⟩ := List.exists_cons_of_ne_nil (naturalDigits_ne_nil n)
  have digit : c.isDigit := isDigit_of_mem_naturalDigits (by rw [hdigits]; exact List.mem_cons_self)
  rw [hdigits, unsignedPart]
  rintro rest same
  rw [(List.cons.inj same).1] at digit
  cases digit

theorem lex_integerChars (n : Int) : Numeral.lex (integerChars n) = some (integerNumeral n, []) := by
  have unsigned : unsignedPart (integerChars n) = (decide (n < 0), naturalDigits n.natAbs) := by
    rw [integerChars]
    by_cases hn : n < 0
    · rw [if_pos hn, decide_eq_true hn]
      rfl
    · rw [if_neg hn, decide_eq_false hn]
      exact unsignedPart_naturalDigits _
  rw [Numeral.lex_eq_some_iff, unsigned]
  exact ⟨[], [], lexWhole_naturalDigits _, rfl, rfl, rfl⟩

/-- Whether an integer fits into 64 bits with or without a sign. -/
def FitsWord (n : Int) : Prop := -(Words.int64End : Int) ≤ n ∧ n < Words.uint64End

theorem node_integerNumeral {n : Int} (fits : FitsWord n) : (integerNumeral n).node = .integer n := by
  obtain ⟨low, high⟩ := fits
  have whole : digitsValue (integerNumeral n).whole = n.natAbs := digitsValue_naturalDigits _
  have plain : (integerNumeral n).fraction = [] ∧ (integerNumeral n).exponent = none := ⟨rfl, rfl⟩
  by_cases hn : n < 0
  · have negative : (integerNumeral n).negative = true := decide_eq_true hn
    have size : 0 < digitsValue (integerNumeral n).whole ∧
        digitsValue (integerNumeral n).whole ≤ Words.int64End := by omega
    refine (if_neg fun first => ?_).trans ((if_pos ⟨plain, negative, size⟩).trans ?_)
    · exact nomatch negative.symm.trans first.2.1
    · exact congrArg Node.integer (by omega)
  · have positive : (integerNumeral n).negative = false := decide_eq_false hn
    have size : digitsValue (integerNumeral n).whole < Words.uint64End := by omega
    refine (if_pos ⟨plain, positive, size⟩).trans ?_
    exact congrArg Node.integer (by omega)

theorem starts_of_lex {cs rest : List Char} {numeral : Numeral}
    (read : Numeral.lex cs = some (numeral, rest)) : ∃ c ∈ cs.head?, c = '-' ∨ c.isDigit := by
  obtain ⟨afterWhole, -, hwhole, -⟩ := Numeral.lex_eq_some_iff.mp read
  cases cs with
  | nil => cases read
  | cons c cs =>
      refine ⟨c, rfl, ?_⟩
      by_cases hminus : c = '-'
      · exact .inl hminus
      · refine .inr ?_
        have unsigned : unsignedPart (c :: cs) = (false, c :: cs) := by
          rw [unsignedPart]
          exact fun _ same => hminus (List.cons.inj same).1
        by_contra hdigit
        rw [unsigned, lexWhole, List.takeWhile_cons_of_neg hdigit] at hwhole
        cases hwhole

theorem spells_of_lex {cs : List Char} {numeral : Numeral}
    (read : Numeral.lex cs = some (numeral, [])) : Spells cs numeral.node where
  starts := starts_of_lex read
  lex _ ends := ⟨numeral, Numeral.lex_append ends read, rfl⟩

/-- An integer of 64 bits is read from its digits. -/
theorem spells_integerChars {n : Int} (fits : FitsWord n) : Spells (integerChars n) (.integer n) :=
  node_integerNumeral fits ▸ spells_of_lex (lex_integerChars n)

theorem fitsWord_toInt (n : Int64) : FitsWord n.toInt := by
  have low := n.le_toInt
  have high := n.toInt_lt
  simp only [FitsWord, Words.int64End, Words.uint64End]
  omega

/-! ## Other numbers -/

/-- Whether a number is read back from its own text; only a finite number is. -/
def ReadsBack (x : Float) : Prop := decode Decoder.real (compact (.real x)) = .ok x

instance (x : Float) : Decidable (ReadsBack x) :=
  match read : decode Decoder.real (compact (.real x)) with
  | .ok y => decidable_of_iff (y = x) (by rw [ReadsBack, read, Except.ok.injEq])
  | .error why => isFalse (by rw [ReadsBack, read]; nofun)

example : ReadsBack 0.1 ∧ ReadsBack (-0.0) ∧ ¬ReadsBack (1.0 / 0.0) := by decide +kernel

/-- The characters of numbers. -/
def IsNumberChar (c : Char) : Prop := c.isDigit ∨ c = '.' ∨ c = 'e' ∨ c = '-' ∨ c = '+'

theorem IsNumberChar.ne {c d : Char} (h : IsNumberChar c)
    (other : ¬(d.isDigit ∨ d = '.' ∨ d = 'e' ∨ d = '-' ∨ d = '+')) : c ≠ d := by
  rintro rfl
  exact other h

theorem IsNumberChar.not_blank {c : Char} (h : IsNumberChar c) : isBlank c = false := by
  simp [isBlank, h.ne (d := ' ') (by decide), h.ne (d := '\n') (by decide),
    h.ne (d := '\t') (by decide), h.ne (d := '\r') (by decide)]

theorem isNumberChar_of_mem_naturalDigits {n : Nat} {c : Char} (h : c ∈ naturalDigits n) :
    IsNumberChar c := .inl (isDigit_of_mem_naturalDigits h)

theorem isNumberChar_of_mem_pointed {n places : Nat} {c : Char}
    (h : c ∈ Decimal.pointed (naturalDigits n) places) : IsNumberChar c := by
  have padded {k : Nat} (h : c ∈ List.replicate k '0' ++ naturalDigits n) : IsNumberChar c := by
    rcases List.mem_append.mp h with h | h
    · rw [List.eq_of_mem_replicate h]
      exact .inl rfl
    · exact isNumberChar_of_mem_naturalDigits h
  rw [Decimal.pointed] at h
  rcases List.mem_append.mp h with h | h
  · exact padded (List.mem_of_mem_take h)
  · rcases List.mem_cons.mp h with rfl | h
    · exact .inr (.inl rfl)
    · exact padded (List.mem_of_mem_drop h)

theorem isNumberChar_of_mem_scientific {d : Decimal.Scaled} {c : Char}
    (h : c ∈ Decimal.Layout.scientific d) : IsNumberChar c := by
  rw [Decimal.Layout.scientific] at h
  rcases List.mem_append.mp h with h | h
  · rcases List.mem_append.mp h with h | h
    · exact isNumberChar_of_mem_naturalDigits (List.mem_of_mem_take h)
    · split at h
      · cases h
      · rcases List.mem_cons.mp h with rfl | h
        · exact .inr (.inl rfl)
        · exact isNumberChar_of_mem_naturalDigits (List.mem_of_mem_drop h)
  · rcases List.mem_cons.mp h with rfl | h
    · exact .inr (.inr (.inl rfl))
    · rcases List.mem_cons.mp h with rfl | h
      · split
        · exact .inr (.inr (.inr (.inl rfl)))
        · exact .inr (.inr (.inr (.inr rfl)))
      · exact isNumberChar_of_mem_naturalDigits h

/-- A number has a point or an exponent, and no characters but those of numbers. -/
structure IsMarked (cs : List Char) : Prop where
  chars : ∀ c ∈ cs, IsNumberChar c
  mark : '.' ∈ cs ∨ 'e' ∈ cs

theorem isMarked_plain (d : Decimal.Scaled) : IsMarked (numberLayout.plain d) := by
  rw [Decimal.Layout.plain]
  split
  · constructor
    · intro c h
      rcases List.mem_append.mp h with h | h
      · exact isNumberChar_of_mem_naturalDigits h
      · have dotted : c = '.' ∨ c = '0' := by simpa [numberLayout] using h
        rcases dotted with rfl | rfl
        · exact .inr (.inl rfl)
        · exact .inl rfl
    · simp [numberLayout]
  · exact ⟨fun c => isNumberChar_of_mem_pointed, .inl (by simp [Decimal.pointed])⟩

theorem isMarked_write (d : Decimal.Scaled) : IsMarked (numberLayout.write d) := by
  have scientific : IsMarked (Decimal.Layout.scientific d) :=
    ⟨fun c => isNumberChar_of_mem_scientific, .inr (by simp [Decimal.Layout.scientific])⟩
  have either : numberLayout.write d = numberLayout.plain d ∨
      numberLayout.write d = Decimal.Layout.scientific d := by
    simp only [Decimal.Layout.write, numberLayout]
    split
    · exact .inl rfl
    · exact .inr rfl
  rcases either with same | same
  · rw [same]
    exact isMarked_plain d
  · rw [same]
    exact scientific

theorem realChars_cases (x : Float) : realChars x = "null".toList ∨ IsMarked (realChars x) := by
  rw [realChars]
  split
  · rename_i value _
    refine .inr ?_
    have magnitude := isMarked_write (value.shortest numberLayout.tie)
    split
    · refine ⟨fun c h => ?_, magnitude.mark.imp (List.mem_cons_of_mem _) (List.mem_cons_of_mem _)⟩
      rcases List.mem_cons.mp h with rfl | h
      · exact .inr (.inr (.inr (.inl rfl)))
      · exact magnitude.chars c h
    · exact magnitude
  · exact .inl rfl

theorem readNode_of_isMarked {cs : List Char} (marked : IsMarked cs) (fuel : Nat) :
    readNode none (fuel + 1) cs =
      match Numeral.lex cs with
      | none => (.broken, none)
      | some (numeral, rest) => (numeral.node, some rest) := by
  cases cs with
  | nil => exact absurd marked.mark (by simp)
  | cons c cs =>
      have hc := marked.chars c List.mem_cons_self
      rw [readNode_scalar hc.not_blank (hc.ne (by decide)) (hc.ne (by decide)), readScalar.eq_def]
      split
      all_goals
        rename_i heq
        first
          | rfl
          | exact absurd (List.cons.inj heq).1 (hc.ne (by decide))

theorem suffix_of_lexWhole {cs whole rest : List Char} (read : lexWhole cs = some (whole, rest)) :
    rest <:+ cs := by
  rw [lexWhole] at read
  split at read
  · cases read
  · exact (Prod.mk.inj (Option.some.inj read)).2 ▸ List.drop_suffix _ _
  · cases read
  · exact (Prod.mk.inj (Option.some.inj read)).2 ▸ List.dropWhile_suffix _

theorem suffix_of_lexFraction {cs fraction rest : List Char} (read : lexFraction cs = some (fraction, rest)) :
    rest <:+ cs := by
  unfold lexFraction at read
  split at read
  · split at read
    · cases read
    · rw [← (Prod.mk.inj (Option.some.inj read)).2]
      exact (List.dropWhile_suffix _).trans (List.suffix_cons _ _)
  · exact (Prod.mk.inj (Option.some.inj read)).2 ▸ List.suffix_refl _

theorem suffix_splitSign (cs : List Char) : (Decimal.splitSign cs).2 <:+ cs := by
  unfold Decimal.splitSign
  split
  · exact List.suffix_cons _ _
  · exact List.suffix_cons _ _
  · exact List.suffix_refl _

theorem suffix_of_lexExponent {cs rest : List Char} {exponent : Option (Bool × List Char)}
    (read : lexExponent cs = some (exponent, rest)) : rest <:+ cs := by
  unfold lexExponent at read
  split at read
  · split at read
    · dsimp only at read
      split at read
      · cases read
      · rw [← (Prod.mk.inj (Option.some.inj read)).2]
        exact ((List.dropWhile_suffix _).trans (suffix_splitSign _)).trans (List.suffix_cons _ _)
    · exact (Prod.mk.inj (Option.some.inj read)).2 ▸ List.suffix_refl _
  · exact (Prod.mk.inj (Option.some.inj read)).2 ▸ List.suffix_refl _

theorem suffix_unsignedPart (cs : List Char) : (unsignedPart cs).2 <:+ cs := by
  unfold unsignedPart
  split
  · exact List.suffix_cons _ _
  · exact List.suffix_refl _

/-- What follows a numeral is the end of the text that it was read from. -/
theorem Numeral.suffix_of_lex {cs rest : List Char} {numeral : Numeral}
    (read : Numeral.lex cs = some (numeral, rest)) : rest <:+ cs := by
  obtain ⟨afterWhole, afterFraction, whole, fraction, exponent, -⟩ := Numeral.lex_eq_some_iff.mp read
  have behind : rest <:+ afterWhole := (suffix_of_lexExponent exponent).trans (suffix_of_lexFraction fraction)
  exact behind.trans ((suffix_of_lexWhole whole).trans (suffix_unsignedPart cs))

theorem isDigit_of_lexWhole {cs whole : List Char} (read : lexWhole cs = some (whole, [])) :
    ∀ c ∈ cs, c.isDigit := by
  rw [lexWhole] at read
  split at read
  · cases read
  · rename_i one
    have short : cs.drop 1 = [] := (Prod.mk.inj (Option.some.inj read)).2
    cases cs with
    | nil => nofun
    | cons c cs =>
        obtain rfl : cs = [] := short
        have digit : c ∈ [c].takeWhile Char.isDigit := by
          rw [one]
          by_cases hc : c.isDigit
          · rw [List.takeWhile_cons_of_pos hc] at one
            simpa using one
          · rw [List.takeWhile_cons_of_neg hc] at one
            cases one
        intro d hd
        obtain rfl := List.mem_singleton.mp hd
        exact List.mem_takeWhile_imp digit
  · cases read
  · exact List.dropWhile_eq_nil_iff.mp (Prod.mk.inj (Option.some.inj read)).2

theorem eq_of_lexFraction_nil {cs rest : List Char} (read : lexFraction cs = some ([], rest)) : cs = rest := by
  unfold lexFraction at read
  split at read
  · split at read
    · cases read
    · rename_i some_digits
      exact absurd (Prod.mk.inj (Option.some.inj read)).1 some_digits
  · exact (Prod.mk.inj (Option.some.inj read)).2

theorem eq_of_lexExponent_none {cs rest : List Char} (read : lexExponent cs = some (none, rest)) :
    cs = rest := by
  unfold lexExponent at read
  split at read
  · split at read
    · dsimp only at read
      split at read <;> cases read
    · exact (Prod.mk.inj (Option.some.inj read)).2
  · exact (Prod.mk.inj (Option.some.inj read)).2

/-- A numeral with a point or an exponent is no plain integer. -/
theorem Numeral.not_plain_of_mark {cs : List Char} {numeral : Numeral}
    (read : Numeral.lex cs = some (numeral, [])) (mark : '.' ∈ cs ∨ 'e' ∈ cs) :
    ¬(numeral.fraction = [] ∧ numeral.exponent = none) := by
  rintro ⟨noFraction, noExponent⟩
  obtain ⟨afterWhole, afterFraction, hwhole, hfraction, hexponent, -⟩ := Numeral.lex_eq_some_iff.mp read
  have fraction : afterWhole = [] :=
    (eq_of_lexFraction_nil (noFraction ▸ hfraction)).trans (eq_of_lexExponent_none (noExponent ▸ hexponent))
  rw [fraction] at hwhole
  have digits := isDigit_of_lexWhole hwhole
  have signed : ∀ c ∈ cs, c = '-' ∨ c.isDigit := by
    unfold unsignedPart at digits
    split at digits
    · intro c hc
      exact (List.mem_cons.mp hc).imp_right (digits c)
    · exact fun c hc => .inr (digits c hc)
  rcases mark with mark | mark
  · exact absurd (signed _ mark) (by decide)
  · exact absurd (signed _ mark) (by decide)

theorem Numeral.node_of_not_plain {numeral : Numeral}
    (other : ¬(numeral.fraction = [] ∧ numeral.exponent = none)) :
    (∃ x, numeral.node = .real x) ∨ numeral.node = .unusable := by
  simp only [Numeral.node, other, false_and, if_false]
  cases numeral.real? with
  | none => exact .inr rfl
  | some x => exact .inl ⟨x, rfl⟩

theorem exists_lex_of_reading {cs : List Char} {node : Node} (marked : IsMarked cs)
    (read : readChars none cs = ⟨node, true⟩) :
    ∃ numeral, Numeral.lex cs = some (numeral, []) ∧ numeral.node = node := by
  rw [readChars, readNode_of_isMarked marked] at read
  cases hlex : Numeral.lex cs with
  | none =>
      rw [hlex] at read
      injection read with _ complete
      cases complete
  | some found =>
      obtain ⟨numeral, rest⟩ := found
      rw [hlex] at read
      injection read with same complete
      refine ⟨numeral, ?_, same⟩
      cases rest with
      | nil => rfl
      | cons c rest =>
          -- a rest would begin with a character of a number, which is no blank
          have hc := marked.chars c ((Numeral.suffix_of_lex hlex).subset List.mem_cons_self)
          rw [skipBlanks_cons hc.not_blank] at complete
          cases complete

/-- A number that is read back from its own text is read as itself, whatever follows. -/
theorem ReadsBack.spells {x : Float} (back : ReadsBack x) : Spells (realChars x) (.real x) := by
  have decoded : (readChars none (realChars x)).decode Decoder.real = .ok x := by
    rw [ReadsBack, decode, read, compact, String.toList_ofList] at back
    exact back
  rcases realChars_cases x with null | marked
  · rw [null] at decoded
    cases decoded
  · obtain ⟨value, hvalue, decoded⟩ := exists_of_bind_eq_ok decoded
    cases hreading : readChars none (realChars x) with
    | mk node complete =>
        rw [hreading] at hvalue decoded
        cases complete with
        | false => cases decoded
        | true =>
            obtain rfl : value = x := Except.ok.inj decoded
            obtain ⟨numeral, hlex, rfl⟩ := exists_lex_of_reading marked hreading
            have node : numeral.node = .real value := by
              rcases Numeral.node_of_not_plain (Numeral.not_plain_of_mark hlex marked.mark) with
                ⟨y, hy⟩ | hy
              · rw [hy] at hvalue ⊢
                rw [Except.ok.inj hvalue]
              · rw [hy] at hvalue
                cases hvalue
            exact node ▸ spells_of_lex hlex

end UsageBoard.Json
