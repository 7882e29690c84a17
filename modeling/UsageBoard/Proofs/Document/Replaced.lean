import UsageBoard.Proofs.Document.Fields
import UsageBoard.Proofs.Outcome

/-!
# Records in which one member is replaced

Two documents that differ in the value of one member are decoded to values that are related, if the values
of that member are.  What relates the values of a record is put together along its description.

## Main statements

* `Related.seq`: how the fields of a record are put together.
* `Related.decoder`: a record is decoded from a table in which a member is replaced.
-/

namespace UsageBoard.Document

variable {α β : Type} {depth : Nat} {name : String} {node replaced : Node} {lookup later : Lookup}

/-- Two look-ups that differ only in what is found under one name. -/
structure Lookup.DifferAt (name : String) (node replaced : Node) (lookup later : Lookup) : Prop where
  found : lookup.node? name = some node
  replaced : later.node? name = some replaced
  others : ∀ other, other ≠ name → later.node? other = lookup.node? other
  absent : later.absent = lookup.absent

namespace Record

/-- If a record is built from one look-up, it is built from another, and the values are related. -/
def Related (record : Record α) (depth : Nat) (lookup later : Lookup) (relates : α → α → Prop) : Prop :=
  ∀ value, record.build depth lookup = .ok value →
    ∃ other, record.build depth later = .ok other ∧ relates value other

variable {relates : α → α → Prop}

theorem Related.mono {relates_more : α → α → Prop} {record : Record α}
    (related : record.Related depth lookup later relates)
    (along : ∀ value other, relates value other → relates_more value other) :
    record.Related depth lookup later relates_more := by
  intro value built
  obtain ⟨other, rebuilt, relates⟩ := related value built
  exact ⟨other, rebuilt, along value other relates⟩

theorem Related.pure {value : α} (same : relates value value) :
    Related (Pure.pure value) depth lookup later relates := by
  rintro _ ⟨⟩
  exact ⟨value, rfl, same⟩

theorem Related.seq {relates_whole : β → β → Prop} {f : Record (α → β)} {x : Record α}
    (first : f.Related depth lookup later fun g other =>
      ∀ value replaced, relates value replaced → relates_whole (g value) (other replaced))
    (second : x.Related depth lookup later relates) :
    (f <*> x).Related depth lookup later relates_whole := by
  intro whole built
  obtain ⟨g, hg, built⟩ := exists_of_bind_eq_ok built
  obtain ⟨value, hvalue, built⟩ := exists_of_bind_eq_ok built
  obtain rfl := Except.ok.inj built
  obtain ⟨other, hother, along⟩ := first g hg
  obtain ⟨replaced, hreplaced, related⟩ := second value hvalue
  refine ⟨other replaced, ?_, along value replaced related⟩
  change (f.build depth later >>= fun g => x.build depth later >>= fun value => Pure.pure (g value)) = _
  rw [hother, hreplaced]
  rfl

theorem Related.map {relates_whole : β → β → Prop} (f : α → β) {x : Record α}
    (along : ∀ value replaced, relates value replaced → relates_whole (f value) (f replaced))
    (related : x.Related depth lookup later relates) :
    (f <$> x).Related depth lookup later relates_whole :=
  Related.seq (Related.pure along) related

/-- A field of another name has the same value. -/
theorem Related.other (differ : Lookup.DifferAt name node replaced lookup later) {field : String}
    (other : field ≠ name) (decode : Decoder α) (default : Option α) :
    (fieldWith field decode default).Related depth lookup later Eq := by
  intro value built
  refine ⟨value, ?_, rfl⟩
  simp only [fieldWith] at built ⊢
  rwa [differ.others field other, differ.absent]

theorem Related.field (differ : Lookup.DifferAt name node replaced lookup later) {decode : Decoder α}
    (default : Option α)
    (decodes : ∀ value, decode depth node = .ok value →
      ∃ other, decode depth replaced = .ok other ∧ relates value other) :
    (fieldWith name decode default).Related depth lookup later relates := by
  intro value built
  simp only [fieldWith, differ.found] at built
  obtain ⟨other, hother, related⟩ := decodes value built
  refine ⟨other, ?_, related⟩
  simp only [fieldWith, differ.replaced]
  exact hother

section Members

variable {record : Record α} {leniency : Leniency} {check : Decoder Unit}
  {before after : List (Option String × Node)}

/-- A field that is accepted is there once, wherever it stands. -/
theorem Accepts.notMem_before (accepts : record.Accepts leniency depth (before ++ (some name, node) :: after))
    (field : record.fields.lookup name = some check) : ∀ member ∈ before, member.1 ≠ some name := by
  intro member there same
  have once := accepts.once
  rw [fieldsIn, List.filterMap_append, List.filter_append, List.nodup_append] at once
  have first : name ∈ (before.filterMap Prod.fst).filter fun name => (record.fields.lookup name).isSome := by
    simp only [List.mem_filter, List.mem_filterMap, field, Option.isSome_some, and_true]
    exact ⟨member, there, same⟩
  exact once.2.2 name first name (by simp [field]) rfl

theorem lookup_of_notMem_before (first : ∀ member ∈ before, member.1 ≠ some name) (node : Node) :
    (before ++ (some name, node) :: after).lookup (some name) = some node :=
  List.lookup_eq_some_iff.mpr
    ⟨before, after, rfl, fun member there => bne_iff_ne.mpr (first member there).symm⟩

theorem lookup_of_ne {other : String} (ne : other ≠ name) (node replaced : Node) :
    (before ++ (some name, replaced) :: after).lookup (some other) =
      (before ++ (some name, node) :: after).lookup (some other) := by
  simp [List.lookup_append, lookup_cons_eq_ite, ne]

theorem differAt_ofMembers (first : ∀ member ∈ before, member.1 ≠ some name) (node replaced : Node) :
    Lookup.DifferAt name node replaced (ofMembers (before ++ (some name, node) :: after))
      (ofMembers (before ++ (some name, replaced) :: after)) where
  found := lookup_of_notMem_before first node
  replaced := lookup_of_notMem_before first replaced
  others _ ne := lookup_of_ne ne node replaced
  absent := rfl

theorem Accepts.replace (accepts : record.Accepts leniency depth (before ++ (some name, node) :: after))
    (field : record.fields.lookup name = some check) (typed : check depth replaced = .ok ()) :
    record.Accepts leniency depth (before ++ (some name, replaced) :: after) := by
  have first := accepts.notMem_before field
  refine ⟨?_, ?_, ?_, ?_⟩
  · intro member there
    rcases List.mem_append.mp there with there | there
    · exact accepts.named member (List.mem_append_left _ there)
    · rcases List.mem_cons.mp there with rfl | there
      · nofun
      · exact accepts.named member (by simp [there])
  · have once := accepts.once
    rw [fieldsIn, List.filterMap_append] at once ⊢
    exact once
  · intro other otherCheck found otherField there
    by_cases own : other = name
    · subst own
      obtain rfl := Option.some.inj (field.symm.trans otherField)
      obtain rfl := Option.some.inj ((lookup_of_notMem_before first replaced).symm.trans there)
      exact typed
    · rw [lookup_of_ne own node] at there
      exact accepts.typed other otherCheck found otherField there
  · intro other found there unknown
    refine accepts.skipped other found ?_ unknown
    rcases List.mem_append.mp there with there | there
    · exact List.mem_append_left _ there
    · rcases List.mem_cons.mp there with same | there
      · obtain ⟨same, -⟩ := Prod.mk.inj same
        obtain rfl := Option.some.inj same
        rw [field] at unknown
        cases unknown
      · simp [there]

/-- A record is decoded from a table in which the value of a field is replaced. -/
theorem Related.decoder {title : String} (field : record.fields.lookup name = some check)
    (typed : check (depth - 1) node = .ok () → check (depth - 1) replaced = .ok ())
    (related : ∀ lookup later, Lookup.DifferAt name node replaced lookup later →
      record.Related (depth - 1) lookup later relates) {value : α}
    (decoded : record.decoder title leniency depth (.table (before ++ (some name, node) :: after)) =
      .ok value) :
    ∃ other, record.decoder title leniency depth
        (.table (before ++ (some name, replaced) :: after)) = .ok other ∧ relates value other := by
  obtain ⟨deep, accepts, built⟩ := decoder_table_eq_ok_iff.mp decoded
  have first := accepts.notMem_before field
  have was : check (depth - 1) node = .ok () :=
    accepts.typed name check node field (lookup_of_notMem_before first node)
  obtain ⟨other, rebuilt, relates⟩ := related _ _ (differAt_ofMembers first node replaced) value built
  exact ⟨other, decoder_table_eq_ok_iff.mpr ⟨deep, accepts.replace field (typed was), rebuilt⟩, relates⟩

end Members

end Record

end UsageBoard.Document
