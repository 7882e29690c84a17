import UsageBoard.Json.Parser

/-!
# Reading what was written

The text of a value is read as the value, whatever its strings hold and however its parts are spaced.
Of the numbers in the value it is asked that each is read as itself.

## Main statements

* `readString_flatMap`: a string is read back from its escapes.
* `readNode_chars`: a value is read back from its text in front of any text that ends it.
* `read_pretty`: so is a document.
-/

namespace UsageBoard.Json

open UsageBoard.Document (Node Reading Decoder DecodeError)

/-! ## Strings -/

theorem hexValue?_hexDigit : ∀ n < 16, hexValue? (hexDigit n) = some n := by decide

theorem hexUnit?_hexDigit {high low : Nat} (hhigh : high < 16) (hlow : low < 16) :
    hexUnit? '0' '0' (hexDigit high) (hexDigit low) = some (high * 16 + low) := by
  have hzero : hexValue? '0' = some 0 := by decide
  simp [hexUnit?, hzero, hexValue?_hexDigit _ hhigh, hexValue?_hexDigit _ hlow]

theorem readString_simpleEscape {letter c : Char} (h : simpleEscape? letter = some c)
    (hu : letter ≠ 'u') (rest : List Char) :
    readString none none ('\\' :: letter :: rest) = (readString none none rest).push c := by
  rw [readString.eq_def]
  split
  · contradiction
  · rename_i heq
    injection heq with heq _
    exact absurd heq (by decide)
  · rename_i heq
    injection heq with _ heq
    injection heq with heq
    exact absurd heq hu
  · rename_i heq
    injection heq with _ heq
    injection heq with hletter hrest
    subst hletter hrest
    simp [h, StringReading.settle]
  · rename_i hescape heq
    injection heq with hc hrest
    subst hc hrest
    exact absurd rfl (hescape letter rest rfl)

theorem readString_control {c : Char} (h : c.toNat < 32) (rest : List Char) :
    readString none none
        ('\\' :: 'u' :: '0' :: '0' :: hexDigit (c.toNat / 16) :: hexDigit (c.toNat % 16) :: rest) =
      (readString none none rest).push c := by
  have hunit : c.toNat / 16 * 16 + c.toNat % 16 = c.toNat := by omega
  rw [readString, hexUnit?_hexDigit (by omega) (by omega), hunit]
  have hhigh : ¬(0xD800 ≤ c.toNat ∧ c.toNat ≤ 0xDBFF) := by omega
  have hlow : ¬(0xDC00 ≤ c.toNat ∧ c.toNat ≤ 0xDFFF) := by omega
  simp only [if_neg hhigh, if_neg hlow, StringReading.settle, Char.ofNat_toNat]
  rfl

theorem readString_plain {c : Char} (hquote : c ≠ '"') (hslash : c ≠ '\\') (h : ¬c.toNat < 32)
    (rest : List Char) :
    readString none none (c :: rest) = (readString none none rest).push c := by
  rw [readString.eq_def]
  split
  · contradiction
  all_goals
    rename_i heq
    injection heq with hc hrest
    subst hc hrest
    first
      | exact absurd rfl hquote
      | exact absurd rfl hslash
      | simp [hslash, h, StringReading.settle]

/-- The three forms in which a character stands in a string. -/
theorem escapedChar_cases (c : Char) :
    (∃ letter, escapedChar c = ['\\', letter] ∧ simpleEscape? letter = some c ∧ letter ≠ 'u') ∨
      (c.toNat < 32 ∧
        escapedChar c = ['\\', 'u', '0', '0', hexDigit (c.toNat / 16), hexDigit (c.toNat % 16)]) ∨
      (c ≠ '"' ∧ c ≠ '\\' ∧ ¬c.toNat < 32 ∧ escapedChar c = [c]) := by
  have hchar {n : Nat} (h : c.toNat = n) : c = Char.ofNat n := by rw [← h, Char.ofNat_toNat]
  unfold escapedChar
  split
  · rename_i h
    exact .inl ⟨'"', rfl, by rw [h]; rfl, by decide⟩
  split
  · rename_i h
    exact .inl ⟨'\\', rfl, by rw [h]; rfl, by decide⟩
  split
  · rename_i h
    exact .inl ⟨'n', rfl, by rw [h]; rfl, by decide⟩
  split
  · rename_i h
    exact .inl ⟨'r', rfl, by rw [h]; rfl, by decide⟩
  split
  · rename_i h
    exact .inl ⟨'t', rfl, by rw [h]; rfl, by decide⟩
  split
  · rename_i h
    exact .inl ⟨'b', rfl, by rw [hchar h]; rfl, by decide⟩
  split
  · rename_i h
    exact .inl ⟨'f', rfl, by rw [hchar h]; rfl, by decide⟩
  split
  · rename_i h
    exact .inr (.inl ⟨h, rfl⟩)
  · rename_i hquote hslash _ _ _ _ _ h
    exact .inr (.inr ⟨hquote, hslash, h, rfl⟩)

theorem readString_escapedChar (c : Char) (rest : List Char) :
    readString none none (escapedChar c ++ rest) = (readString none none rest).push c := by
  rcases escapedChar_cases c with ⟨letter, heq, h, hu⟩ | ⟨h, heq⟩ | ⟨hquote, hslash, h, heq⟩
  · rw [heq]
    exact readString_simpleEscape h hu rest
  · rw [heq]
    exact readString_control h rest
  · rw [heq]
    exact readString_plain hquote hslash h rest

theorem readString_flatMap (cs rest : List Char) :
    readString none none (cs.flatMap escapedChar ++ '"' :: rest) = some (some cs, rest) := by
  induction cs with
  | nil => simp [readString, StringReading.settle]
  | cons c cs ih =>
      rw [List.flatMap_cons, List.append_assoc, readString_escapedChar, ih]
      rfl

/-! ## Spacing -/

/-- Between its parts a text has only blanks, with a comma or a colon in front where one is due. -/
structure Style.IsSpacing (style : Style) : Prop where
  opening : ∀ depth, ∀ c ∈ style.opening depth, isBlank c
  closing : ∀ depth, ∀ c ∈ style.closing depth, isBlank c
  separator : ∀ depth, ∃ blanks, style.separator depth = ',' :: blanks ∧ ∀ c ∈ blanks, isBlank c
  colon : ∃ blanks, style.colon = ':' :: blanks ∧ ∀ c ∈ blanks, isBlank c

theorem isBlank_of_mem_lineBreak {depth : Nat} {c : Char} (h : c ∈ lineBreak depth) : isBlank c := by
  rcases List.mem_cons.mp h with rfl | h
  · rfl
  · rw [List.eq_of_mem_replicate h]
    rfl

theorem Style.isSpacing_pretty : Style.pretty.IsSpacing where
  opening _ _ h := isBlank_of_mem_lineBreak h
  closing _ _ h := isBlank_of_mem_lineBreak h
  separator _ := ⟨_, rfl, fun _ h => isBlank_of_mem_lineBreak h⟩
  colon := ⟨[' '], rfl, by simp [isBlank]⟩

theorem Style.isSpacing_compact : Style.compact.IsSpacing where
  opening _ _ h := by cases h
  closing _ _ h := by cases h
  separator _ := ⟨[], rfl, nofun⟩
  colon := ⟨[], rfl, nofun⟩

theorem skipBlanks_append {blanks : List Char} (h : ∀ c ∈ blanks, isBlank c) (cs : List Char) :
    skipBlanks (blanks ++ cs) = skipBlanks cs :=
  List.dropWhile_append_of_pos h

theorem skipBlanks_cons {c : Char} (h : isBlank c = false) (cs : List Char) :
    skipBlanks (c :: cs) = c :: cs := by
  simp [skipBlanks, h]

theorem readNode_append {blanks : List Char} (h : ∀ c ∈ blanks, isBlank c) (fuel : Nat)
    (cs : List Char) : readNode none fuel (blanks ++ cs) = readNode none fuel cs := by
  cases fuel with
  | zero => rw [readNode, readNode]
  | succ fuel => rw [readNode, readNode, skipBlanks_append h]

theorem readItems_append {blanks : List Char} (h : ∀ c ∈ blanks, isBlank c) (fuel : Nat)
    (cs : List Char) : readItems none fuel (blanks ++ cs) = readItems none fuel cs := by
  cases fuel with
  | zero => rw [readItems, readItems]
  | succ fuel => rw [readItems, readItems, readNode_append h]

theorem readMembers_append {blanks : List Char} (h : ∀ c ∈ blanks, isBlank c) (fuel : Nat)
    (cs : List Char) : readMembers none fuel (blanks ++ cs) = readMembers none fuel cs := by
  cases fuel with
  | zero => rw [readMembers, readMembers]
  | succ fuel => rw [readMembers, readMembers, skipBlanks_append h]

/-! ## Values -/

mutual

def node : Json → Node
  | .null => .null
  | .bool value => .bool value
  | .integer value => .integer value
  | .real value => .real value
  | .text value => .text value
  | .list items => .list (nodes items)
  | .object members => .table (memberNodes members)

def nodes : List Json → List Node
  | [] => []
  | item :: items => node item :: nodes items

def memberNodes : List (String × Json) → List (Option String × Node)
  | [] => []
  | (key, value) :: members => (some key, node value) :: memberNodes members

end

/-- No number goes on at the front of a text. -/
def EndsNumber (cs : List Char) : Prop :=
  ∀ c ∈ cs.head?, c.isDigit = false ∧ c ≠ '.' ∧ c ≠ 'e' ∧ c ≠ 'E'

structure Spells (cs : List Char) (node : Node) : Prop where
  starts : ∃ c ∈ cs.head?, c = '-' ∨ c.isDigit
  lex : ∀ rest, EndsNumber rest →
    ∃ numeral, Numeral.lex (cs ++ rest) = some (numeral, rest) ∧ numeral.node = node

mutual

/-- Each number of a value is read as itself. -/
def Legible : Json → Prop
  | .integer value => Spells (integerChars value) (.integer value)
  | .real value => Spells (realChars value) (.real value)
  | .list items => AllLegible items
  | .object members => MembersLegible members
  | _ => True

def AllLegible : List Json → Prop
  | [] => True
  | item :: items => Legible item ∧ AllLegible items

def MembersLegible : List (String × Json) → Prop
  | [] => True
  | (_, value) :: members => Legible value ∧ MembersLegible members

end

theorem endsNumber_append {blanks : List Char} (h : ∀ c ∈ blanks, isBlank c) {c : Char}
    (hc : c.isDigit = false ∧ c ≠ '.' ∧ c ≠ 'e' ∧ c ≠ 'E') (rest : List Char) :
    EndsNumber (blanks ++ c :: rest) := by
  cases blanks with
  | nil => simpa [EndsNumber] using hc
  | cons blank blanks =>
      have hblank := h blank (by simp)
      intro d hd
      obtain rfl : blank = d := by simpa using hd
      simp only [isBlank, Bool.or_eq_true, beq_iff_eq] at hblank
      rcases hblank with ((rfl | rfl) | rfl) | rfl <;> decide

theorem Spells.readScalar {cs : List Char} {node : Node} (h : Spells cs node) {rest : List Char}
    (hrest : EndsNumber rest) : readScalar none (cs ++ rest) = (node, some rest) := by
  obtain ⟨numeral, hlex, rfl⟩ := h.lex rest hrest
  obtain ⟨c, hc, hnumber⟩ := h.starts
  obtain ⟨cs, rfl⟩ := List.head?_eq_some_iff.mp hc
  rw [List.cons_append] at hlex ⊢
  rw [Json.readScalar.eq_def]
  split
  all_goals
    rename_i heq
    first
      | rw [hlex]
      | exact absurd hnumber (by rw [(List.cons.inj heq).1]; decide)

theorem readScalar_stringChars (value : String) (rest : List Char) :
    readScalar none (stringChars value ++ rest) = (.text value, some rest) := by
  simp [stringChars, readScalar, readString_flatMap]

/-- A value that is no list and no object is read without a look at its parts. -/
theorem readNode_scalar {c : Char} (hblank : isBlank c = false) (hlist : c ≠ '[')
    (hobject : c ≠ '\x7b') (fuel : Nat) (cs : List Char) :
    readNode none (fuel + 1) (c :: cs) = readScalar none (c :: cs) := by
  rw [readNode, skipBlanks_cons hblank]
  split
  · rename_i heq
    exact absurd (List.cons.inj heq).1 hlist
  · rename_i heq
    exact absurd (List.cons.inj heq).1 hobject
  · rfl

theorem not_bracket_of_number {c : Char} (h : c = '-' ∨ c.isDigit) :
    isBlank c = false ∧ c ≠ '[' ∧ c ≠ ']' ∧ c ≠ '\x7b' := by
  have hne (d : Char) (hd : ¬(d = '-' ∨ d.isDigit)) : c ≠ d := by
    rintro rfl
    exact hd h
  refine ⟨?_, hne _ (by decide), hne _ (by decide), hne _ (by decide)⟩
  simp [isBlank, hne ' ' (by decide), hne '\n' (by decide), hne '\t' (by decide),
    hne '\r' (by decide)]

theorem Spells.readNode {cs : List Char} {node : Node} (h : Spells cs node) (fuel : Nat)
    {rest : List Char} (hrest : EndsNumber rest) :
    readNode none (fuel + 1) (cs ++ rest) = (node, some rest) := by
  have hscalar := h.readScalar hrest
  obtain ⟨c, hc, hnumber⟩ := h.starts
  obtain ⟨cs, rfl⟩ := List.head?_eq_some_iff.mp hc
  obtain ⟨hblank, hlist, -, hobject⟩ := not_bracket_of_number hnumber
  exact (readNode_scalar hblank hlist hobject fuel _).trans hscalar

/-- The text of a value begins with a character that is no blank and ends no list. -/
theorem exists_chars_eq_cons (style : Style) (depth : Nat) {value : Json} (h : value.Legible) :
    ∃ c cs, chars style depth value = c :: cs ∧ isBlank c = false ∧ c ≠ ']' := by
  have hnumber {cs : List Char} {node : Node} (h : Spells cs node) :
      ∃ c rest, cs = c :: rest ∧ isBlank c = false ∧ c ≠ ']' := by
    obtain ⟨c, hc, hnumber⟩ := h.starts
    obtain ⟨rest, rfl⟩ := List.head?_eq_some_iff.mp hc
    obtain ⟨hblank, -, hend, -⟩ := not_bracket_of_number hnumber
    exact ⟨c, rest, rfl, hblank, hend⟩
  cases value with
  | null => exact ⟨'n', _, rfl, rfl, by decide⟩
  | bool value => cases value <;> exact ⟨_, _, rfl, rfl, by decide⟩
  | integer value => exact hnumber h
  | real value => exact hnumber h
  | text value => exact ⟨_, _, rfl, rfl, by decide⟩
  | list items => cases items <;> exact ⟨_, _, rfl, rfl, by decide⟩
  | object members => cases members <;> exact ⟨_, _, rfl, rfl, by decide⟩

section

variable {style : Style}

def afterMember (fuel : Nat) (member : Option String × Node) (after : List Char) :
    NodeReading (List (Option String × Node)) :=
  match skipBlanks after with
  | ',' :: rest =>
      let (members, after) := readMembers none fuel rest
      (member :: members, after)
  | '\x7d' :: rest => ([member], some rest)
  | _ => ([member, (none, .broken)], none)

theorem readMembers_member (hstyle : style.IsSpacing) (key : String) {value : Node}
    {fuel : Nat} {cs after : List Char} (h : readNode none fuel cs = (value, some after)) :
    readMembers none (fuel + 1) (stringChars key ++ (style.colon ++ cs)) =
      afterMember fuel (some key, value) after := by
  obtain ⟨blanks, hcolon, hblanks⟩ := hstyle.colon
  have hquote : isBlank '"' = false := rfl
  have hmark : isBlank ':' = false := rfl
  rw [readMembers]
  simp only [stringChars, List.cons_append, List.append_assoc, List.nil_append,
    skipBlanks_cons hquote, readString_flatMap, hcolon, skipBlanks_cons hmark,
    readNode_append hblanks, h, Option.map_some, String.ofList_toList]
  rfl

theorem Style.IsSpacing.endsNumber_items (hstyle : style.IsSpacing) (depth : Nat)
    (items : List Json) (rest : List Char) :
    EndsNumber (itemChars style depth items ++ (style.closing depth ++ ']' :: rest)) := by
  cases items with
  | nil => exact endsNumber_append (hstyle.closing depth) (by decide) rest
  | cons item items =>
      obtain ⟨blanks, hseparator, -⟩ := hstyle.separator depth
      simp [itemChars, hseparator, EndsNumber]

theorem Style.IsSpacing.endsNumber_members (hstyle : style.IsSpacing) (depth : Nat)
    (members : List (String × Json)) (rest : List Char) :
    EndsNumber (memberChars style depth members ++ (style.closing depth ++ '\x7d' :: rest)) := by
  cases members with
  | nil => exact endsNumber_append (hstyle.closing depth) (by decide) rest
  | cons member members =>
      obtain ⟨blanks, hseparator, -⟩ := hstyle.separator depth
      simp [memberChars, hseparator, EndsNumber]

mutual

theorem readNode_chars (hstyle : style.IsSpacing) : ∀ (value : Json) (depth fuel : Nat)
    (rest : List Char), value.Legible → EndsNumber rest → (chars style depth value).length ≤ fuel →
      readNode none fuel (chars style depth value ++ rest) = (value.node, some rest)
  | .null, depth, fuel + 1, rest, _, _, _ => by
      have htext : chars style depth .null = ['n', 'u', 'l', 'l'] := by simp [chars, scalarChars]
      rw [htext]
      refine (readNode_scalar rfl (by decide) (by decide) fuel _).trans ?_
      simp [readScalar, readWord, node]
  | .bool true, depth, fuel + 1, rest, _, _, _ => by
      have htext : chars style depth (.bool true) = ['t', 'r', 'u', 'e'] := by
        simp [chars, scalarChars]
      rw [htext]
      refine (readNode_scalar rfl (by decide) (by decide) fuel _).trans ?_
      simp [readScalar, readWord, node]
  | .bool false, depth, fuel + 1, rest, _, _, _ => by
      have htext : chars style depth (.bool false) = ['f', 'a', 'l', 's', 'e'] := by
        simp [chars, scalarChars]
      rw [htext]
      refine (readNode_scalar rfl (by decide) (by decide) fuel _).trans ?_
      simp [readScalar, readWord, node]
  | .integer value, _, fuel + 1, rest, h, hrest, _ => Spells.readNode h fuel hrest
  | .real value, _, fuel + 1, rest, h, hrest, _ => Spells.readNode h fuel hrest
  | .text value, _, fuel + 1, rest, _, _, _ =>
      (readNode_scalar rfl (by decide) (by decide) fuel _).trans (readScalar_stringChars value rest)
  | .list [], _, fuel + 1, rest, _, _, _ => by
      have hopen : isBlank '[' = false := rfl
      have hclose : isBlank ']' = false := rfl
      simp [chars, readNode, skipBlanks_cons, hopen, hclose, node, nodes]
  | .list (item :: items), depth, fuel + 1, rest, h, _, hfuel => by
      have hitems := readItems_chars hstyle item items depth fuel rest h.1 h.2 (by
        simp only [chars, List.length_append, List.length_cons] at hfuel
        omega)
      obtain ⟨c, cs, hc, hblank, hend⟩ := exists_chars_eq_cons style (depth + 1) h.1
      simp only [chars, List.append_assoc, List.cons_append, List.nil_append]
      rw [readNode, skipBlanks_cons rfl]
      simp only [skipBlanks_append (hstyle.opening depth)]
      rw [hc, List.cons_append] at hitems ⊢
      rw [skipBlanks_cons hblank]
      split
      · rename_i heq
        exact absurd (List.cons.inj heq).1 hend
      · rw [hitems]
        rfl
  | .object [], _, fuel + 1, rest, _, _, _ => by
      have hopen : isBlank '\x7b' = false := rfl
      have hclose : isBlank '\x7d' = false := rfl
      simp [chars, readNode, skipBlanks_cons, hopen, hclose, node, memberNodes]
  | .object ((key, value) :: members), depth, fuel + 1, rest, h, _, hfuel => by
      have hmembers := readMembers_chars hstyle key value members depth fuel rest h.1 h.2 (by
        simp only [chars, List.length_append, List.length_cons] at hfuel
        omega)
      simp only [chars, List.append_assoc, List.cons_append, List.nil_append]
      rw [readNode, skipBlanks_cons rfl]
      simp only [skipBlanks_append (hstyle.opening depth)]
      rw [stringChars, List.cons_append, List.cons_append] at hmembers ⊢
      rw [skipBlanks_cons rfl]
      split
      · rename_i heq
        exact absurd (List.cons.inj heq).1 (by decide)
      · rw [hmembers]
        rfl
  | value, depth, 0, _, h, _, hfuel => by
      obtain ⟨c, cs, heq, -, -⟩ := exists_chars_eq_cons style depth h
      rw [heq] at hfuel
      exact absurd hfuel (by simp)

theorem readItems_chars (hstyle : style.IsSpacing) : ∀ (item : Json) (items : List Json)
    (depth fuel : Nat) (rest : List Char), item.Legible → AllLegible items →
      (chars style (depth + 1) item).length + (itemChars style depth items).length < fuel →
      readItems none fuel (chars style (depth + 1) item ++
        (itemChars style depth items ++ (style.closing depth ++ ']' :: rest))) =
        (item.node :: nodes items, some rest)
  | item, items, depth, 0, _, _, _, hfuel => absurd hfuel (Nat.not_lt_zero _)
  | item, [], depth, fuel + 1, rest, h, _, hfuel => by
      have hitem := readNode_chars hstyle item (depth + 1) fuel _ h
        (hstyle.endsNumber_items depth [] rest) (by omega)
      rw [readItems, hitem]
      simp only [itemChars, List.nil_append, skipBlanks_append (hstyle.closing depth)]
      rw [skipBlanks_cons rfl]
      rfl
  | item, next :: items, depth, fuel + 1, rest, h, hitems, hfuel => by
      obtain ⟨blanks, hseparator, hblanks⟩ := hstyle.separator depth
      have hitem := readNode_chars hstyle item (depth + 1) fuel _ h
        (hstyle.endsNumber_items depth (next :: items) rest) (by omega)
      have hnext := readItems_chars hstyle next items depth fuel rest hitems.1 hitems.2 (by
        simp only [itemChars, hseparator, List.length_append, List.length_cons] at hfuel
        omega)
      rw [readItems, hitem]
      simp only [itemChars, hseparator, List.append_assoc, List.cons_append]
      rw [skipBlanks_cons rfl]
      simp only [readItems_append hblanks, hnext, nodes]

theorem readMembers_chars (hstyle : style.IsSpacing) : ∀ (key : String) (value : Json)
    (members : List (String × Json)) (depth fuel : Nat) (rest : List Char), value.Legible →
      MembersLegible members →
      (chars style (depth + 1) value).length + (memberChars style depth members).length < fuel →
      readMembers none fuel (stringChars key ++ (style.colon ++ (chars style (depth + 1) value ++
        (memberChars style depth members ++ (style.closing depth ++ '\x7d' :: rest))))) =
        ((some key, value.node) :: memberNodes members, some rest)
  | key, value, members, depth, 0, _, _, _, hfuel => absurd hfuel (Nat.not_lt_zero _)
  | key, value, [], depth, fuel + 1, rest, h, _, hfuel => by
      have hvalue := readNode_chars hstyle value (depth + 1) fuel _ h
        (hstyle.endsNumber_members depth [] rest) (by omega)
      rw [readMembers_member hstyle key hvalue, afterMember]
      simp only [memberChars, List.nil_append, skipBlanks_append (hstyle.closing depth)]
      rw [skipBlanks_cons rfl]
      rfl
  | key, value, (other, next) :: members, depth, fuel + 1, rest, h, hmembers, hfuel => by
      obtain ⟨blanks, hseparator, hblanks⟩ := hstyle.separator depth
      have hvalue := readNode_chars hstyle value (depth + 1) fuel _ h
        (hstyle.endsNumber_members depth ((other, next) :: members) rest) (by omega)
      have hnext := readMembers_chars hstyle other next members depth fuel rest hmembers.1
        hmembers.2 (by
          simp only [memberChars, hseparator, List.length_append, List.length_cons] at hfuel
          omega)
      rw [readMembers_member hstyle key hvalue, afterMember]
      simp only [memberChars, hseparator, List.append_assoc, List.cons_append]
      rw [skipBlanks_cons rfl]
      simp only [readMembers_append hblanks, hnext, memberNodes]

end

theorem readChars_chars (hstyle : style.IsSpacing) {value : Json} (h : value.Legible) :
    readChars none (chars style 0 value) = ⟨value.node, true⟩ := by
  have hread := readNode_chars hstyle value 0 (2 * (chars style 0 value).length + 2) [] h
    (by simp [EndsNumber]) (by omega)
  rw [List.append_nil] at hread
  rw [readChars, hread]
  rfl

end

theorem read_compact {value : Json} (h : value.Legible) : read value.compact = ⟨value.node, true⟩ := by
  rw [read, compact, String.toList_ofList, readChars_chars Style.isSpacing_compact h]

theorem read_pretty {value : Json} (h : value.Legible) : read value.pretty = ⟨value.node, true⟩ := by
  rw [read, pretty, String.toList_ofList, readChars_chars Style.isSpacing_pretty h]

end UsageBoard.Json
