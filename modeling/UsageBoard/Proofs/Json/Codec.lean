import UsageBoard.Proofs.Document.Written

/-!
# Types with a form in JSON

A value is written as a JSON text and read from one.  That reading undoes writing comes down to three
laws of the tree that is written, which mention no text (`Codec.Lawful`).

Main statement: under these laws a value is read from its own text, compact or indented, and what is
read from any text is read again from the text that is written for it (`Codec.Lawful.roundTrips`).
-/

namespace UsageBoard.Json

open UsageBoard.Document (Decoder Node)

/-! ## Values of which each number is read as itself -/

theorem legible_integer (n : Int64) : (Json.integer n.toInt).Legible :=
  spells_integerChars (fitsWord_toInt n)

theorem legible_real {x : Float} (back : ReadsBack x) : (Json.real x).Legible := back.spells

theorem legible_text (text : String) : (Json.text text).Legible := trivial

theorem legible_ofOption {α : Type} {encode : α → Json} {value : Option α}
    (legible : ∀ found, value = some found → (encode found).Legible) :
    (Json.ofOption encode value).Legible := by
  cases value with
  | none => trivial
  | some found => exact legible found rfl

theorem legible_list {items : List Json} : (Json.list items).Legible ↔ ∀ item ∈ items, item.Legible := by
  rw [Legible]
  induction items with
  | nil => simp [AllLegible]
  | cons item items ih => simp [AllLegible, ih]

theorem legible_object {members : List (String × Json)} :
    (Json.object members).Legible ↔ ∀ member ∈ members, member.2.Legible := by
  rw [Legible]
  induction members with
  | nil => simp [MembersLegible]
  | cons member members ih => simp [MembersLegible, ih]

/-! ## Laws -/

/-- How the values of a type are written and read. -/
structure Codec (α : Type) where
  encode : α → Json
  decoder : Decoder α
  /-- The numbers of a value that are no integers. -/
  reals : α → List Float
  /-- Whether the parts of a value stand in the one order that they can have. -/
  IsOrdered : α → Prop

namespace Codec

variable {α : Type} {codec : Codec α}

/-- Each number of a value is read back from its own text. -/
def RealsReadBack (codec : Codec α) (value : α) : Prop := ∀ x ∈ codec.reals value, ReadsBack x

/-- A value is read from its own text. -/
def ReadsOwnText (codec : Codec α) (value : α) : Prop :=
  decode codec.decoder (codec.encode value).compact = .ok value ∧
    decode codec.decoder (codec.encode value).pretty = .ok value

/-- Reading undoes writing, for values and for texts. -/
structure RoundTrips (codec : Codec α) : Prop where
  value : ∀ value, codec.IsOrdered value → codec.RealsReadBack value → codec.ReadsOwnText value
  text : ∀ text value, decode codec.decoder text = .ok value → codec.RealsReadBack value →
    codec.ReadsOwnText value

/-- The laws of the tree that is written; what is read has no more than four levels of lists and
tables. -/
structure Lawful (codec : Codec α) : Prop where
  legible : ∀ value, codec.RealsReadBack value → (codec.encode value).Legible
  decoder_node : ∀ value, codec.IsOrdered value → ∀ depth,
    codec.decoder (depth + 4) (codec.encode value).node = .ok value
  ordered : ∀ depth node value, codec.decoder depth node = .ok value → codec.IsOrdered value

theorem Lawful.readsOwnText (lawful : codec.Lawful) {value : α} (ordered : codec.IsOrdered value)
    (reals : codec.RealsReadBack value) : codec.ReadsOwnText value := by
  have legible := lawful.legible value reals
  have node : codec.decoder Document.depthLimit (codec.encode value).node = .ok value :=
    lawful.decoder_node value ordered 124
  constructor
  · rw [decode, read_compact legible, Document.Reading.decode, node]
    rfl
  · rw [decode, read_pretty legible, Document.Reading.decode, node]
    rfl

theorem Lawful.roundTrips (lawful : codec.Lawful) : codec.RoundTrips where
  value _ ordered reals := lawful.readsOwnText ordered reals
  text _ value decoded reals := by
    obtain ⟨_, found, last⟩ := exists_of_bind_eq_ok decoded
    split at last
    · obtain rfl := Except.ok.inj last
      exact lawful.readsOwnText (lawful.ordered _ _ _ found) reals
    · cases last

end Codec

end UsageBoard.Json
