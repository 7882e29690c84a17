import Mathlib
import UsageBoard.Markup.Destination
import UsageBoard.Proofs.Text.Runs
import UsageBoard.Proofs.Url.Joining

/-!
# Schemes of destinations

A browser leaves out some characters of an address before it looks for a scheme, and the filter leaves
out more.  Whatever scheme the browser finds, the filter has seen it too.

## Main statements

* `cleaned_viewed`: the filter sees what a browser sees.
* `isAllowed_iff`: which destinations the filter accepts.
* `filters_schemes`: no accepted destination has another scheme for a browser, and all others that may be
  kept are.
-/

namespace UsageBoard.Markup.Destination

open UsageBoard.Url (isKept isPad)

/-- The characters of a destination that count for a browser: not the controls and spaces in front, and
no tabs and line breaks. -/
def viewed (destination : List Char) : List Char := (destination.dropWhile isPad).filter isKept

def isSchemeChar (c : Char) : Bool := c.isAlphanum || c == '+' || c == '-' || c == '.'

/-- A letter, and letters, digits, plus signs, dashes and points after it. -/
structure IsScheme (name : List Char) : Prop where
  letter : name.head?.any Char.isAlpha
  chars : ∀ c ∈ name, isSchemeChar c

def IsHarmlessName (name : List Char) : Prop :=
  Text.lower (String.ofList name) ∈ ["http", "https", "mailto"]

/-- The first colon, if there is one, comes after a slash, a question mark or a number sign, or it ends
the name of a harmless scheme. -/
def IsHarmless (destination : List Char) : Prop :=
  ∀ front rest, cleaned destination = front ++ ':' :: rest → ':' ∉ front →
    '/' ∈ front ∨ '?' ∈ front ∨ '#' ∈ front ∨ IsHarmlessName front

instance (name : List Char) : Decidable (IsHarmlessName name) :=
  inferInstanceAs (Decidable (_ ∈ _))

/-! ## What counts of a destination -/

theorem not_counts_of_isPad {c : Char} (pad : isPad c) : (!Text.isBlank c && !Text.isControl c) = false := by
  have own : ∀ c, isPad c → (!Text.isBlank c && !Text.isControl c) = false :=
    Url.forall_isPad (by decide)
  exact own c pad

theorem isKept_of_counts {c : Char} (counts : !Text.isBlank c && !Text.isControl c) : isKept c := by
  simp only [isKept, Bool.and_eq_true, bne_iff_ne]
  refine ⟨⟨?_, ?_⟩, ?_⟩ <;> rintro rfl <;> revert counts <;> decide

/-- The filter leaves out all that a browser leaves out. -/
theorem cleaned_viewed (destination : List Char) : cleaned (viewed destination) = cleaned destination := by
  have kept : cleaned (viewed destination) = cleaned (destination.dropWhile isPad) := by
    rw [cleaned, viewed, List.filter_filter]
    refine List.filter_congr fun c _ => ?_
    cases counts : !Text.isBlank c && !Text.isControl c with
    | false => rfl
    | true => rw [isKept_of_counts counts, Bool.and_self]
  rw [kept]
  exact Text.filter_dropWhile (fun c => not_counts_of_isPad) destination

theorem forall_isSchemeChar {property : Char → Prop}
    (small : ∀ n < 128, isSchemeChar (Char.ofNat n) → property (Char.ofNat n)) :
    ∀ c, isSchemeChar c → property c := by
  intro c scheme
  have bound : c.toNat < 128 := by
    simp only [isSchemeChar, Char.isAlphanum, Char.isAlpha, Char.isUpper, Char.isLower, Char.isDigit,
      Bool.or_eq_true, Bool.and_eq_true, decide_eq_true_eq, beq_iff_eq, UInt32.le_iff_toNat_le, ge_iff_le] at scheme
    rcases scheme with (((scheme | rfl) | rfl) | rfl)
    · have toNat : c.toNat = c.val.toNat := rfl
      have last : 'Z'.val.toNat = 90 ∧ 'z'.val.toNat = 122 ∧ '9'.val.toNat = 57 := by decide
      omega
    all_goals decide
  have same := small c.toNat bound
  rw [Char.ofNat_toNat] at same
  exact same scheme

theorem IsScheme.cleaned_append {name : List Char} (scheme : IsScheme name) (rest : List Char) :
    cleaned (name ++ ':' :: rest) = name ++ ':' :: cleaned rest := by
  have own : ∀ c, isSchemeChar c → (!Text.isBlank c && !Text.isControl c) = true :=
    forall_isSchemeChar (by decide)
  have named : cleaned name = name := List.filter_eq_self.mpr fun c hc => own c (scheme.chars c hc)
  rw [cleaned, List.filter_append, List.filter_cons_of_pos (by decide)]
  exact congrArg (· ++ _) named

theorem IsScheme.notMem {name : List Char} (scheme : IsScheme name) {c : Char}
    (other : isSchemeChar c = false) : c ∉ name := by
  intro hc
  rw [scheme.chars c hc] at other
  contradiction

/-! ## What the filter accepts -/

theorem endsScheme_of_free {front : List Char} (colon : ':' ∉ front) (slash : '/' ∉ front)
    (question : '?' ∉ front) (number : '#' ∉ front) : ∀ c ∈ front, endsScheme c = false := by
  intro c hc
  simp only [endsScheme, Bool.or_eq_false_iff, beq_eq_false_iff_ne]
  refine ⟨⟨⟨?_, ?_⟩, ?_⟩, ?_⟩ <;> rintro rfl <;> contradiction

/-- The filter accepts a destination just if its first colon does no harm. -/
theorem isAllowed_iff (destination : List Char) : isAllowed destination ↔ IsHarmless destination := by
  constructor
  · intro allowed front rest split colon
    by_contra! harm
    obtain ⟨slash, question, number, name⟩ := harm
    have inside : ∀ c ∈ front, (!endsScheme c) = true := fun c hc => by
      rw [endsScheme_of_free colon slash question number c hc, Bool.not_false]
    have stop : ∀ c ∈ (':' :: rest).head?, (!endsScheme c) = false := by simp [endsScheme]
    obtain ⟨taken, dropped⟩ := Text.takeWhile_of_run inside stop
    have scheme : scheme? destination = some (Text.lower (String.ofList front)) := by
      simp only [scheme?, split, taken, dropped]
    rw [isAllowed, scheme] at allowed
    exact name (by simpa [IsHarmlessName, allowedSchemes] using allowed)
  · intro harmless
    unfold isAllowed
    cases found : scheme? destination with
    | none => rfl
    | some name =>
        simp only [scheme?] at found
        split at found
        · rename_i rest dropped
          obtain rfl := Option.some.inj found
          have outside : ∀ c ∈ (cleaned destination).takeWhile fun c => !endsScheme c, endsScheme c = false :=
            fun c hc => by simpa using List.mem_takeWhile_imp hc
          have free : ∀ c, endsScheme c → c ∉ (cleaned destination).takeWhile fun c => !endsScheme c := by
            intro c ends hc
            rw [outside c hc] at ends
            contradiction
          have split := List.takeWhile_append_dropWhile (p := fun c => !endsScheme c) (l := cleaned destination)
          rw [dropped] at split
          rcases harmless _ _ split.symm (free ':' rfl) with slash | question | number | name
          · exact absurd slash (free '/' rfl)
          · exact absurd question (free '?' rfl)
          · exact absurd number (free '#' rfl)
          · simpa [IsHarmlessName, allowedSchemes] using name
        · contradiction

/-- A scheme that a browser finds in an accepted destination is harmless, and just the destinations that
do no harm are accepted and kept; all others lead to the top of the page. -/
theorem filters_schemes (destination : List Char) :
    (isAllowed destination → ∀ name rest, viewed destination = name ++ ':' :: rest → IsScheme name →
      IsHarmlessName name) ∧
    (IsHarmless destination → isAllowed destination ∧ safe destination = destination) ∧
    (¬IsHarmless destination → safe destination = ['#']) := by
  rw [← isAllowed_iff]
  refine ⟨?_, fun allowed => ⟨allowed, if_pos allowed⟩, fun refused => if_neg refused⟩
  intro allowed name rest split scheme
  have seen : cleaned destination = name ++ ':' :: cleaned rest := by
    rw [← cleaned_viewed, split, scheme.cleaned_append]
  have free : ∀ c, isSchemeChar c = false → c ∉ name := fun c => scheme.notMem
  rcases (isAllowed_iff destination).mp allowed name _ seen (free ':' rfl) with slash | question | number | name
  · exact absurd slash (free '/' rfl)
  · exact absurd question (free '?' rfl)
  · exact absurd number (free '#' rfl)
  · exact name

/-- With a control in front and breaks inside, a mail address is accepted and a script is not. -/
theorem filters_schemes_of_breaks :
    (isAllowed "\x01 Ma\tilT\no:ops@example.com".toList ∧
      viewed "\x01 Ma\tilT\no:ops@example.com".toList = "MailTo".toList ++ ':' :: "ops@example.com".toList ∧
      IsScheme "MailTo".toList ∧ IsHarmlessName "MailTo".toList) ∧
    ¬IsHarmless "java\tscript:alert(1)".toList ∧ safe "java\tscript:alert(1)".toList = ['#'] := by
  have allowed : isAllowed "\x01 Ma\tilT\no:ops@example.com".toList := by decide +kernel
  have seen : viewed "\x01 Ma\tilT\no:ops@example.com".toList =
      "MailTo".toList ++ ':' :: "ops@example.com".toList := by decide +kernel
  have scheme : IsScheme "MailTo".toList := ⟨by decide +kernel, by simp [isSchemeChar]⟩
  have refused : ¬isAllowed "java\tscript:alert(1)".toList := by decide +kernel
  have harm : ¬IsHarmless "java\tscript:alert(1)".toList := fun harmless =>
    refused ((isAllowed_iff _).mpr harmless)
  exact ⟨⟨allowed, seen, scheme, (filters_schemes _).1 allowed _ _ seen scheme⟩, harm,
    (filters_schemes _).2.2 harm⟩

end UsageBoard.Markup.Destination
