import UsageBoard.Proofs.Text.Lines
import UsageBoard.Proofs.Text.Utf8
import UsageBoard.Proofs.Url.Extending

/-!
# Forms read back

A form is cut at its ampersands, and each part at its first equals sign.  A name or a value is decoded
after its plus signs have become blanks, so that an encoded plus sign stays one.

## Main statements

* `formValue_formText`: a text is read back as it was written.
* `formPairs_formQuery`: so are the pairs of a form, in their order.
* `addParameters_cons`: what is added to an address is read after what was there.
-/

namespace UsageBoard.Url

def blankOfPlus (c : Char) : Char := if c = '+' then ' ' else c

/-- The text of a name or a value; bytes that are no text are read as replacement characters. -/
def formValue (cs : List Char) : String :=
  String.ofList (Text.decodeWith '\ufffd' (decode (cs.map blankOfPlus)))

/-- A name and its value; a part without an equals sign is a name. -/
def formPart (cs : List Char) : String × String :=
  let (name, value) := splitBefore (· == '=') cs
  (formValue name, formValue (value.drop 1))

/-- The pairs of a form; parts that are empty do not count. -/
def formPairs (query : String) : List (String × String) :=
  ((Text.parts '&' query.toList).filter (· ≠ [])).map formPart

/-- The pairs in the query of an address. -/
def pairs (url : Url) : List (String × String) := (url.query.map formPairs).getD []

/-! ## Bytes -/

/-- A character that stands for itself in a form. -/
def isFree (c : Char) : Bool := c != '%' && c != '+' && c != '&' && c != '='

theorem isFree_iff {c : Char} : isFree c = true ↔ c ≠ '%' ∧ c ≠ '+' ∧ c ≠ '&' ∧ c ≠ '=' := by
  simp [isFree, and_assoc]

theorem hexValue_upperDigit {n : Nat} (h : n < 16) : Json.hexValue? (upperDigit n) = some n := by
  have all : ∀ n < 16, Json.hexValue? (upperDigit n) = some n := by decide
  exact all n h

theorem isFree_upperDigit {n : Nat} (h : n < 16) : isFree (upperDigit n) = true := by
  have all : ∀ n < 16, isFree (upperDigit n) = true := by decide
  exact all n h

theorem formByte_cases (byte : UInt8) :
    (byte = 0x20 ∧ formByte byte = ['+']) ∨
      (∃ c, bytesOf c = [byte] ∧ isFree c = true ∧ formByte byte = [c]) ∨ formByte byte = triple byte := by
  have all : ∀ n < 256, (UInt8.ofNat n = 0x20 ∧ formByte (UInt8.ofNat n) = ['+']) ∨
      (bytesOf (Char.ofNat n) = [UInt8.ofNat n] ∧ isFree (Char.ofNat n) = true ∧
        formByte (UInt8.ofNat n) = [Char.ofNat n]) ∨
      formByte (UInt8.ofNat n) = triple (UInt8.ofNat n) := by decide +kernel
  have written := all byte.toNat byte.toNat_lt
  rw [UInt8.ofNat_toNat] at written
  obtain blank | plain | encoded := written
  · exact .inl blank
  · exact .inr (.inl ⟨_, plain⟩)
  · exact .inr (.inr encoded)

theorem decode_cons_of_ne {c : Char} (h : c ≠ '%') (rest : List Char) :
    decode (c :: rest) = bytesOf c ++ decode rest := by
  rw [decode]
  rintro a b others rfl
  exact absurd rfl h

theorem decode_triple (byte : UInt8) (rest : List Char) :
    decode (triple byte ++ rest) = byte :: decode rest := by
  have bound : byte.toNat < 256 := byte.toNat_lt
  rw [triple, List.cons_append, List.cons_append, List.cons_append, List.nil_append, decode,
    hexValue_upperDigit (by omega), hexValue_upperDigit (by omega)]
  dsimp only
  rw [Nat.div_add_mod, UInt8.ofNat_toNat]

theorem blankOfPlus_of_isFree {c : Char} (free : isFree c = true) : blankOfPlus c = c :=
  if_neg (isFree_iff.mp free).2.1

theorem map_triple (byte : UInt8) : (triple byte).map blankOfPlus = triple byte := by
  have bound : byte.toNat < 256 := byte.toNat_lt
  rw [triple, List.map_cons, List.map_cons, List.map_cons, List.map_nil,
    blankOfPlus_of_isFree (isFree_upperDigit (by omega)),
    blankOfPlus_of_isFree (isFree_upperDigit (by omega))]
  rfl

theorem decode_formByte (byte : UInt8) (rest : List Char) :
    decode ((formByte byte).map blankOfPlus ++ rest) = byte :: decode rest := by
  obtain ⟨rfl, written⟩ | ⟨c, bytes, free, written⟩ | written := formByte_cases byte
  · have bytes : bytesOf ' ' = [0x20] := by decide +kernel
    rw [written, List.map_singleton, blankOfPlus, if_pos rfl, List.singleton_append,
      decode_cons_of_ne (by decide), bytes, List.singleton_append]
  · rw [written, List.map_singleton, blankOfPlus_of_isFree free, List.singleton_append,
      decode_cons_of_ne (isFree_iff.mp free).1, bytes, List.singleton_append]
  · rw [written, map_triple, decode_triple]

theorem formByte_free (byte : UInt8) : ∀ c ∈ formByte byte, c ≠ '&' ∧ c ≠ '=' := by
  have bound : byte.toNat < 256 := byte.toNat_lt
  obtain ⟨-, written⟩ | ⟨c, -, free, written⟩ | written := formByte_cases byte
  · rw [written, List.forall_mem_singleton]
    decide
  · rw [written, List.forall_mem_singleton]
    exact (isFree_iff.mp free).2.2
  · have high := isFree_iff.mp (isFree_upperDigit (show byte.toNat / 16 < 16 by omega))
    have low := isFree_iff.mp (isFree_upperDigit (show byte.toNat % 16 < 16 by omega))
    rw [written, triple, List.forall_mem_cons, List.forall_mem_cons, List.forall_mem_singleton]
    exact ⟨by decide, high.2.2, low.2.2⟩

/-! ## Names and values -/

theorem decode_formText (bytes : List UInt8) : decode ((bytes.flatMap formByte).map blankOfPlus) = bytes := by
  induction bytes with
  | nil => rfl
  | cons byte bytes ih => rw [List.flatMap_cons, List.map_append, decode_formByte, ih]

theorem formValue_formText (text : String) : formValue (formText text) = text := by
  rw [formValue, formText, decode_formText, Text.decodeWith_utf8, String.ofList_toList]

theorem formText_free (text : String) : ∀ c ∈ formText text, c ≠ '&' ∧ c ≠ '=' := by
  intro c hc
  obtain ⟨byte, -, there⟩ := List.mem_flatMap.mp hc
  exact formByte_free byte c there

/-! ## Pairs -/

theorem formPart_formPair (name value : String) : formPart (formPair name value) = (name, value) := by
  have name_free : ∀ c ∈ formText name, (c == '=') = false := fun c hc =>
    beq_false_of_ne (formText_free name c hc).2
  have stop : ∀ c, ('=' :: formText value).head? = some c → (c == '=') = true := by
    rintro c hc
    rw [← Option.some.inj hc]
    rfl
  rw [formPart, formPair, splitBefore_append name_free, splitBefore_of_stop stop, List.append_nil]
  dsimp only
  rw [List.drop_one, List.tail_cons, formValue_formText, formValue_formText]

theorem ampersand_notMem_formPair (name value : String) : '&' ∉ formPair name value := by
  rw [formPair, List.mem_append, List.mem_cons]
  rintro (inName | equals | inValue)
  · exact (formText_free name _ inName).1 rfl
  · exact absurd equals (by decide)
  · exact (formText_free value _ inValue).1 rfl

theorem formPairs_append (front rest : String) :
    formPairs (front ++ "&" ++ rest) = formPairs front ++ formPairs rest := by
  have cut : (front ++ "&" ++ rest).toList = front.toList ++ '&' :: rest.toList := by simp
  rw [formPairs, cut, Text.parts_append, List.filter_append, List.map_append]
  rfl

theorem formPairs_pair (name value : String) :
    formPairs (String.ofList (formPair name value)) = [(name, value)] := by
  have there : formPair name value ≠ [] := by simp [formPair]
  rw [formPairs, String.toList_ofList, Text.parts_of_notMem (ampersand_notMem_formPair name value),
    List.filter_cons_of_pos (by simpa using there), List.filter_nil, List.map_singleton, formPart_formPair]

theorem formQuery_cons_cons (pair next : String × String) (others : List (String × String)) :
    formQuery (pair :: next :: others) =
      String.ofList (formPair pair.1 pair.2) ++ "&" ++ formQuery (next :: others) := by
  rw [formQuery, List.map_cons, List.map_cons, String.intercalate_cons_cons]
  rfl

theorem formPairs_formQuery (pairs : List (String × String)) : formPairs (formQuery pairs) = pairs := by
  induction pairs with
  | nil => rfl
  | cons pair others ih =>
      cases others with
      | nil => exact formPairs_pair pair.1 pair.2
      | cons next others => rw [formQuery_cons_cons, formPairs_append, formPairs_pair, ih]; rfl

theorem addParameters_cons (url : Url) (pair : String × String) (others : List (String × String)) :
    ∃ query, (url.addParameters (pair :: others)).query = some query ∧
      formPairs query = url.pairs ++ pair :: others := by
  have named := formQuery_cons_ne_empty pair others
  obtain ⟨scheme, authority, path, _ | query, fragment⟩ := url
  · exact ⟨formQuery (pair :: others), if_neg named, formPairs_formQuery _⟩
  by_cases empty : query = ""
  · subst empty
    exact ⟨formQuery (pair :: others), if_neg named, formPairs_formQuery _⟩
  · refine ⟨query ++ "&" ++ formQuery (pair :: others), ?_, ?_⟩
    · simp [addParameters, empty]
    · rw [formPairs_append, formPairs_formQuery]
      rfl

end UsageBoard.Url
