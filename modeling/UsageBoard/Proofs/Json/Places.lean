import UsageBoard.Proofs.Json.Numerals

/-!
# Objects with a number in the place of a value

The members of an object are read one by one, whatever the texts of their values are.  So a number in the
place of a value does not change how the other members are read.

## Main statements

* `readChars_objectChars`: an object is read from the texts of its values.
* `Place.read_text`: a number is the value of the member in whose place it stands.
-/

namespace UsageBoard.Json

open UsageBoard.Document (Node)

/-- A member of an object: its key, the text of its value, and what that is read as. -/
structure Member where
  key : String
  text : List Char
  node : Node

namespace Member

/-- Whether the text of a value is read as its node, whatever follows. -/
def IsRead (member : Member) : Prop :=
  ∀ fuel rest, EndsNumber rest → member.text.length ≤ fuel →
    readNode none fuel (member.text ++ rest) = (member.node, some rest)

def entry (member : Member) : Option String × Node := (some member.key, member.node)

theorem isRead_of_spells {key : String} {cs : List Char} {node : Node} (spells : Spells cs node) :
    IsRead ⟨key, cs, node⟩ := by
  intro fuel rest ends enough
  obtain ⟨c, hc, -⟩ := spells.starts
  obtain ⟨cs, rfl⟩ := List.head?_eq_some_iff.mp hc
  obtain ⟨fuel, rfl⟩ : ∃ less, fuel = less + 1 := Nat.exists_eq_succ_of_ne_zero (by rintro rfl; cases enough)
  exact spells.readNode fuel ends

/-- A member as it is written. -/
def written (style : Style) (key : String) (value : Json) : Member := ⟨key, chars style 1 value, value.node⟩

theorem isRead_written {style : Style} (hstyle : style.IsSpacing) (key : String) {value : Json}
    (legible : value.Legible) : (written style key value).IsRead :=
  fun fuel rest ends enough => readNode_chars hstyle value 1 fuel rest legible ends enough

end Member

section Objects

variable {style : Style}

/-- The members of an object that are not its first. -/
def laterChars (style : Style) : List Member → List Char
  | [] => []
  | member :: members =>
      style.separator 0 ++ (stringChars member.key ++ (style.colon ++ (member.text ++ laterChars style members)))

/-- The text of an object that is put together from the texts of its values. -/
def objectChars (style : Style) : List Member → List Char
  | [] => ['\x7b', '\x7d']
  | member :: members =>
      '\x7b' :: (style.opening 0 ++ (stringChars member.key ++ (style.colon ++ (member.text ++
        (laterChars style members ++ (style.closing 0 ++ ['\x7d']))))))

theorem endsNumber_laterChars (hstyle : style.IsSpacing) (members : List Member) :
    EndsNumber (laterChars style members ++ (style.closing 0 ++ ['\x7d'])) := by
  cases members with
  | nil => exact endsNumber_append (hstyle.closing 0) (by decide) []
  | cons member members =>
      obtain ⟨blanks, hseparator, -⟩ := hstyle.separator 0
      simp [laterChars, hseparator, EndsNumber]

theorem readMembers_members (hstyle : style.IsSpacing) (member : Member) (members : List Member) (fuel : Nat)
    (isRead : ∀ one ∈ member :: members, one.IsRead)
    (enough : member.text.length + (laterChars style members).length < fuel) :
    readMembers none fuel (stringChars member.key ++ (style.colon ++ (member.text ++
        (laterChars style members ++ (style.closing 0 ++ ['\x7d']))))) =
      ((member :: members).map Member.entry, some []) := by
  induction members generalizing member fuel with
  | nil =>
      obtain ⟨fuel, rfl⟩ : ∃ less, fuel = less + 1 := Nat.exists_eq_succ_of_ne_zero (by omega)
      have value := isRead member List.mem_cons_self fuel _ (endsNumber_laterChars hstyle []) (by omega)
      rw [readMembers_member hstyle member.key value, afterMember]
      simp only [laterChars, List.nil_append, skipBlanks_append (hstyle.closing 0)]
      rw [skipBlanks_cons rfl]
      rfl
  | cons next members ih =>
      obtain ⟨fuel, rfl⟩ : ∃ less, fuel = less + 1 := Nat.exists_eq_succ_of_ne_zero (by omega)
      obtain ⟨blanks, hseparator, hblanks⟩ := hstyle.separator 0
      have value := isRead member List.mem_cons_self fuel _ (endsNumber_laterChars hstyle (next :: members))
        (by omega)
      have later := ih next fuel (fun one there => isRead one (List.mem_cons_of_mem _ there)) (by
        simp only [laterChars, hseparator, List.length_append, List.length_cons] at enough
        omega)
      rw [readMembers_member hstyle member.key value, afterMember]
      simp only [laterChars, hseparator, List.append_assoc, List.cons_append]
      rw [skipBlanks_cons rfl]
      simp only [readMembers_append hblanks, later]
      rfl

theorem readNode_objectChars (hstyle : style.IsSpacing) (member : Member) (members : List Member) (fuel : Nat)
    (isRead : ∀ one ∈ member :: members, one.IsRead)
    (enough : (objectChars style (member :: members)).length ≤ fuel) :
    readNode none (fuel + 1) (objectChars style (member :: members)) =
      (.table ((member :: members).map Member.entry), some []) := by
  have read := readMembers_members hstyle member members fuel isRead (by
    simp only [objectChars, List.length_cons, List.length_append] at enough
    omega)
  rw [objectChars, readNode, skipBlanks_cons rfl]
  simp only [skipBlanks_append (hstyle.opening 0)]
  rw [stringChars, List.cons_append, List.cons_append] at read ⊢
  rw [skipBlanks_cons rfl]
  split
  · rename_i heq
    exact absurd (List.cons.inj heq).1 (by decide)
  · rw [read]

/-- An object is read from the texts of its values. -/
theorem readChars_objectChars (hstyle : style.IsSpacing) {members : List Member}
    (isRead : ∀ one ∈ members, one.IsRead) :
    readChars none (objectChars style members) = ⟨.table (members.map Member.entry), true⟩ := by
  cases members with
  | nil => rfl
  | cons member members =>
      rw [readChars, readNode_objectChars hstyle member members _ isRead (by omega)]
      rfl

end Objects

/-! ## Places for numbers -/

/-- The other members of an object around the value of one. -/
structure Place where
  style : Style
  spacing : style.IsSpacing
  before : List Member
  after : List Member
  read_before : ∀ one ∈ before, one.IsRead
  read_after : ∀ one ∈ after, one.IsRead

namespace Place

variable (place : Place) (key : String)

/-- The object with a number for the value. -/
def text (number : List Char) : String :=
  String.ofList (objectChars place.style (place.before ++ ⟨key, number, .null⟩ :: place.after))

theorem text_eq (number : List Char) (node : Node) :
    place.text key number =
      String.ofList (objectChars place.style (place.before ++ ⟨key, number, node⟩ :: place.after)) := by
  have later (members : List Member) : laterChars place.style (members ++ ⟨key, number, .null⟩ :: place.after) =
      laterChars place.style (members ++ ⟨key, number, node⟩ :: place.after) := by
    induction members with
    | nil => rfl
    | cons member members ih => rw [List.cons_append, List.cons_append, laterChars, laterChars, ih]
  rw [text]
  cases place.before with
  | nil => rfl
  | cons member members => rw [List.cons_append, List.cons_append, objectChars, objectChars, later]

/-- What the object is read as, with a node for the value. -/
def table (node : Node) : Node :=
  .table (place.before.map Member.entry ++ (some key, node) :: place.after.map Member.entry)

theorem read_text {number : List Char} {numeral : Numeral} (lexed : Numeral.lex number = some (numeral, [])) :
    read (place.text key number) = ⟨place.table key numeral.node, true⟩ := by
  have isRead : ∀ one ∈ place.before ++ ⟨key, number, numeral.node⟩ :: place.after, one.IsRead := by
    intro one there
    rcases List.mem_append.mp there with there | there
    · exact place.read_before one there
    · rcases List.mem_cons.mp there with rfl | there
      · exact Member.isRead_of_spells (spells_of_lex lexed)
      · exact place.read_after one there
  rw [place.text_eq key number numeral.node, read, String.toList_ofList,
    readChars_objectChars place.spacing isRead, table, List.map_append, List.map_cons]
  rfl

end Place

end UsageBoard.Json
