import UsageBoard.Proofs.Document.Fields
import UsageBoard.Proofs.Json.Numerals

/-!
# Records that are read from what was written

The members of an object are written for the fields of a record.  A field is read by its name, so that
what holds of each field is put together along the description of the record.

## Main statements

* `Reads.seq`: the fields of two parts of a record are read apart.
* `Reads.decoder_node`: a record is read from an object with a member for each of its fields.
-/

namespace UsageBoard.Document

variable {α β : Type} {depth : Nat} {name : String} {decode : Decoder α} {value : α}
  {members : List (String × Json)}

theorem lookup_memberNodes (members : List (String × Json)) (name : String) :
    (Json.memberNodes members).lookup (some name) = (members.lookup name).map Json.node := by
  induction members with
  | nil => rfl
  | cons member members ih =>
      obtain ⟨key, value⟩ := member
      rw [Json.memberNodes, lookup_cons_eq_ite, lookup_cons_eq_ite, ih]
      by_cases h : name = key <;> simp [h]

theorem memberNodes_eq_map (members : List (String × Json)) :
    Json.memberNodes members = members.map fun member => (some member.1, member.2.node) := by
  induction members with
  | nil => rfl
  | cons member members ih => rw [Json.memberNodes, List.map_cons, ih]

theorem nodes_eq_map (items : List Json) : Json.nodes items = items.map Json.node := by
  induction items with
  | nil => rfl
  | cons item items ih => rw [Json.nodes, List.map_cons, ih]

/-! ## Values -/

namespace Decoder

/-- A decoder reads what was written for a value, which is not null. -/
structure Inverts (decode : Decoder α) (depth : Nat) (encode : α → Json) : Prop where
  reads : ∀ value, decode depth (encode value).node = .ok value
  notNull : ∀ value, (encode value).node ≠ .null

theorem inverts_string : string.Inverts depth .text := ⟨fun _ => rfl, nofun⟩

theorem inverts_bool : bool.Inverts depth .bool := ⟨fun _ => rfl, nofun⟩

theorem inverts_real : real.Inverts depth .real := ⟨fun _ => rfl, nofun⟩

theorem inverts_int64 : int64.Inverts depth fun n => .integer n.toInt where
  reads n := by
    have fits : -(Words.int64End : Int) ≤ n.toInt ∧ n.toInt < Words.int64End :=
      ⟨n.le_toInt, n.toInt_lt⟩
    simp only [int64, Json.node, integer, fits, and_self, if_true, Except.map, Int64.ofInt_toInt]
  notNull := nofun

theorem inverts_lenientInt64 : lenientInt64.Inverts depth fun n => .integer n.toInt where
  reads n := by
    have fits : Words.int64? n.toInt = some n := Words.int64?_eq_some_iff.mpr rfl
    simp only [lenientInt64, Json.node, fits]
  notNull := nofun

variable {encode : α → Json}

/-- A value that may be missing is written as null where it is. -/
theorem Inverts.optional_node (inverts : decode.Inverts depth encode) (value : Option α) :
    optional decode depth (Json.ofOption encode value).node = .ok value := by
  cases value with
  | none => rfl
  | some found =>
      rw [Json.ofOption, optional.eq_2 decode depth _ (inverts.notNull found), inverts.reads]
      rfl

theorem Inverts.list (inverts : decode.Inverts (depth + 1) encode) :
    (list decode).Inverts (depth + 2) fun values => .list (values.map encode) where
  reads values := by
    have deep : ¬depth + 2 ≤ 1 := by omega
    rw [Json.node, nodes_eq_map, Decoder.list, nested, if_neg deep, List.map_map]
    exact mapM_map_eq_ok fun value _ => inverts.reads value
  notNull := nofun

end Decoder

/-! ## Fields -/

namespace Record

/-- A record is read from members: its value is built from them, and each of its fields that is there
has a value of its type. -/
structure Reads (record : Record α) (depth : Nat) (members : List (String × Json)) (value : α) :
    Prop where
  build : record.build depth (ofMembers (Json.memberNodes members)) = .ok value
  check : ∀ name check, (name, check) ∈ record.fields → ∀ found, members.lookup name = some found →
    check depth found.node = .ok ()

theorem Reads.pure (value : α) : Reads (Pure.pure value) depth members value := ⟨rfl, nofun⟩

theorem Reads.seq {f : Record (α → β)} {x : Record α} {g : α → β} (first : f.Reads depth members g)
    (second : x.Reads depth members value) : Reads (f <*> x) depth members (g value) where
  build := by
    change (f.build depth _ >>= fun g => x.build depth _ >>= fun value => Pure.pure (g value)) = _
    rw [first.build, second.build]
    rfl
  check name check field found there := by
    rcases List.mem_append.mp field with field | field
    · exact first.check name check field found there
    · exact second.check name check field found there

theorem Reads.map (f : α → β) {x : Record α} (second : x.Reads depth members value) :
    Reads (f <$> x) depth members (f value) := Reads.seq (Reads.pure f) second

theorem Reads.field {default : Option α} {found : Json} (there : members.lookup name = some found)
    (read : decode depth found.node = .ok value) :
    (fieldWith name decode default).Reads depth members value where
  build := by
    simp only [fieldWith, ofMembers, lookup_memberNodes, there, Option.map_some]
    exact read
  check other check field otherFound otherThere := by
    obtain ⟨rfl, rfl⟩ := Prod.mk.inj (List.mem_singleton.mp field)
    obtain rfl : found = otherFound := Option.some.inj (there.symm.trans otherThere)
    simp [read, Except.map]

theorem Reads.absent (absent : members.lookup name = none) :
    (fieldWith name decode (some value)).Reads depth members value where
  build := by simp [fieldWith, ofMembers, lookup_memberNodes, absent]
  check other check field found there := by
    obtain ⟨rfl, -⟩ := Prod.mk.inj (List.mem_singleton.mp field)
    simp [absent] at there

/-- A field without a value may be left out. -/
theorem Reads.optional {encode : α → Json} {value : Option α} (inverts : decode.Inverts depth encode)
    (there : members.lookup name = value.map encode) :
    (Record.optional name decode).Reads depth members value := by
  cases value with
  | none => exact Reads.absent there
  | some found =>
      refine Reads.field there ?_
      rw [Decoder.optional.eq_2 decode depth _ (inverts.notNull found), inverts.reads]
      rfl

/-- A record is read from an object whose members are fields of it, each there once at most. -/
theorem Reads.decoder_node {record : Record α} (reads : record.Reads (depth + 1) members value)
    (names : (members.map Prod.fst).Sublist (record.fields.map Prod.fst))
    (distinct : (record.fields.map Prod.fst).Nodup) (title : String) (leniency : Leniency) :
    record.decoder title leniency (depth + 2) (Json.object members).node = .ok value := by
  have accepts : record.Accepts leniency (depth + 1) (Json.memberNodes members) := by
    refine ⟨?_, ?_, ?_, ?_⟩
    · intro member there
      rw [memberNodes_eq_map] at there
      obtain ⟨other, -, rfl⟩ := List.mem_map.mp there
      nofun
    · rw [fieldsIn, memberNodes_eq_map, List.filterMap_map]
      have keys : members.filterMap (Prod.fst ∘ fun member => (some member.1, member.2.node)) =
          members.map Prod.fst := congrFun List.filterMap_eq_map members
      rw [keys]
      exact (names.nodup distinct).filter _
    · intro name check found field there
      rw [lookup_memberNodes, Option.map_eq_some_iff] at there
      obtain ⟨json, there, rfl⟩ := there
      obtain ⟨before, after, same, -⟩ := List.lookup_eq_some_iff.mp field
      exact reads.check name check (by simp [same]) json there
    · intro name found there unknown
      rw [memberNodes_eq_map] at there
      obtain ⟨member, written, same⟩ := List.mem_map.mp there
      obtain rfl : member.1 = name := Option.some.inj (Prod.mk.inj same).1
      obtain ⟨field, listed, isName⟩ := List.mem_map.mp (names.subset (List.mem_map_of_mem written))
      have known := List.lookup_eq_none_iff.mp unknown field listed
      simp [isName] at known
  have deep : ¬depth + 2 ≤ 1 := by omega
  rw [Json.node, Record.decoder, Decoder.nested, if_neg deep]
  change (record.checkMembers leniency (depth + 1) [] (Json.memberNodes members) >>= fun _ =>
    record.build (depth + 1) (ofMembers (Json.memberNodes members))) = _
  rw [checkMembers_eq_ok_iff.mpr accepts]
  exact reads.build

/-- A record is decoded by building it from what is found under its names. -/
theorem exists_build_of_decoder {record : Record α} {title : String} {leniency : Leniency} {node : Node}
    (read : record.decoder title leniency depth node = .ok value) :
    ∃ inner lookup, record.build inner lookup = .ok value := by
  unfold decoder at read
  split at read
  · rw [Decoder.nested] at read
    split at read
    · cases read
    · obtain ⟨-, -, built⟩ := exists_of_bind_eq_ok read
      exact ⟨_, _, built⟩
  · rw [Decoder.nested] at read
    split at read
    · cases read
    · obtain ⟨built, hbuilt, rest⟩ := exists_of_bind_eq_ok read
      split at rest
      · obtain rfl := Except.ok.inj rest
        exact ⟨_, _, hbuilt⟩
      · cases rest
  · cases read

theorem exists_of_build_seq {f : Record (α → β)} {x : Record α} {lookup : Lookup} {whole : β}
    (built : (f <*> x).build depth lookup = .ok whole) :
    ∃ g value, f.build depth lookup = .ok g ∧ x.build depth lookup = .ok value ∧ g value = whole := by
  obtain ⟨g, hg, built⟩ := exists_of_bind_eq_ok built
  obtain ⟨value, hvalue, built⟩ := exists_of_bind_eq_ok built
  exact ⟨g, value, hg, hvalue, Except.ok.inj built⟩

theorem exists_node_of_build_required {lookup : Lookup}
    (built : (required name decode).build depth lookup = .ok value) :
    ∃ node, decode depth node = .ok value := by
  simp only [required, fieldWith] at built
  cases there : lookup.node? name with
  | none => simp [there] at built
  | some node => exact ⟨node, by simpa [there] using built⟩

end Record

end UsageBoard.Document
