import UsageBoard.Document.Decoder
import UsageBoard.Pairs

/-!
# Tables that a record accepts

The members of a table are checked in the order of the text, against the fields that were seen.
Main statement: the check succeeds just if every key is a text, no field is there twice, each field
has a value of its type, and all other members may be skipped (`checkMembers_eq_ok_iff`).  Then the
record is built from them (`decoder_table_eq_ok_iff`).
-/

namespace UsageBoard.Document.Record

variable {α : Type} (record : Record α)

/-- The names of fields among the members of a table, in the order of the text. -/
def fieldsIn (members : List (Option String × Node)) : List String :=
  (members.filterMap Prod.fst).filter fun name => (record.fields.lookup name).isSome

structure Accepts (leniency : Leniency) (depth : Nat) (members : List (Option String × Node)) : Prop where
  named : ∀ member ∈ members, member.1 ≠ none
  once : (record.fieldsIn members).Nodup
  typed : ∀ name check value, record.fields.lookup name = some check →
    members.lookup (some name) = some value → check depth value = .ok ()
  skipped : ∀ name value, (some name, value) ∈ members → record.fields.lookup name = none →
    leniency.unknownMembers ∧ value.intact

variable {record} {leniency : Leniency} {depth : Nat} {name : String} {value : Node}
  {members : List (Option String × Node)}

theorem mem_fieldsIn {check : Decoder Unit} (field : record.fields.lookup name = some check)
    (there : members.lookup (some name) = some value) : name ∈ record.fieldsIn members := by
  obtain ⟨pre, post, rfl, -⟩ := List.lookup_eq_some_iff.mp there
  simp [fieldsIn, field]

theorem fieldsIn_cons_of_none (unknown : record.fields.lookup name = none) :
    record.fieldsIn ((some name, value) :: members) = record.fieldsIn members := by
  simp [fieldsIn, unknown]

theorem fieldsIn_cons_of_some {check : Decoder Unit} (field : record.fields.lookup name = some check) :
    record.fieldsIn ((some name, value) :: members) = name :: record.fieldsIn members := by
  simp [fieldsIn, field]

theorem accepts_cons_of_none (unknown : record.fields.lookup name = none) :
    record.Accepts leniency depth ((some name, value) :: members) ↔
      (leniency.unknownMembers ∧ value.intact) ∧ record.Accepts leniency depth members := by
  have hfields : record.fieldsIn ((some name, value) :: members) = record.fieldsIn members :=
    fieldsIn_cons_of_none unknown
  have hlookup : ∀ {other check}, record.fields.lookup other = some check →
      ((some name, value) :: members).lookup (some other) = members.lookup (some other) := by
    intro other check field
    have hne : other ≠ name := by
      rintro rfl
      simp [unknown] at field
    simp [lookup_cons_eq_ite, hne]
  constructor
  · intro h
    refine ⟨h.skipped name value (by simp) unknown, ?_, hfields ▸ h.once, ?_, ?_⟩
    · exact fun member hmember => h.named member (by simp [hmember])
    · exact fun other check found field there =>
        h.typed other check found field ((hlookup field).trans there)
    · exact fun other found hmember => h.skipped other found (by simp [hmember])
  · rintro ⟨hskip, h⟩
    refine ⟨?_, hfields ▸ h.once, ?_, ?_⟩
    · rintro member (_ | ⟨_, hmember⟩)
      · simp
      · exact h.named member hmember
    · exact fun other check found field there =>
        h.typed other check found field ((hlookup field).symm.trans there)
    · rintro other found (_ | ⟨_, hmember⟩) hother
      · exact hskip
      · exact h.skipped other found hmember hother

theorem accepts_cons_of_some {check : Decoder Unit} (field : record.fields.lookup name = some check) :
    record.Accepts leniency depth ((some name, value) :: members) ↔
      (check depth value = .ok () ∧ name ∉ record.fieldsIn members) ∧
        record.Accepts leniency depth members := by
  have hfields : record.fieldsIn ((some name, value) :: members) = name :: record.fieldsIn members :=
    fieldsIn_cons_of_some field
  constructor
  · intro h
    have honce := h.once
    rw [hfields, List.nodup_cons] at honce
    refine ⟨⟨h.typed name check value field (by simp), honce.1⟩, ?_, honce.2, ?_, ?_⟩
    · exact fun member hmember => h.named member (by simp [hmember])
    · intro other otherCheck found hother there
      -- the first member is the only one for its field, so a field of the rest is another one
      have hne : other ≠ name := by
        rintro rfl
        exact honce.1 (mem_fieldsIn hother there)
      exact h.typed other otherCheck found hother (by simpa [lookup_cons_eq_ite, hne] using there)
    · exact fun other found hmember => h.skipped other found (by simp [hmember])
  · rintro ⟨⟨hcheck, hfirst⟩, h⟩
    refine ⟨?_, hfields ▸ List.nodup_cons.mpr ⟨hfirst, h.once⟩, ?_, ?_⟩
    · rintro member (_ | ⟨_, hmember⟩)
      · simp
      · exact h.named member hmember
    · intro other otherCheck found hother there
      rw [lookup_cons_eq_ite] at there
      by_cases hname : other = name
      · subst hname
        obtain rfl : value = found := by simpa using there
        obtain rfl : check = otherCheck := Option.some.inj (field.symm.trans hother)
        exact hcheck
      · exact h.typed other otherCheck found hother (by simpa [hname] using there)
    · rintro other found (_ | ⟨_, hmember⟩) hother
      · simp [field] at hother
      · exact h.skipped other found hmember hother

/-- The check of a table, given the fields already seen. -/
theorem checkMembers_eq_ok_iff_of_seen (seen : List String) :
    record.checkMembers leniency depth seen members = .ok () ↔
      record.Accepts leniency depth members ∧ ∀ name ∈ record.fieldsIn members, name ∉ seen := by
  induction members generalizing seen with
  | nil => exact iff_of_true rfl ⟨⟨by simp, List.nodup_nil, by simp, by simp⟩, by simp [fieldsIn]⟩
  | cons member members ih =>
      obtain ⟨key, value⟩ := member
      cases key with
      | none => exact iff_of_false nofun fun h => h.1.named (none, value) (by simp) rfl
      | some name =>
          cases field : record.fields.lookup name with
          | none =>
              rw [checkMembers, field, accepts_cons_of_none field, fieldsIn_cons_of_none field]
              dsimp only
              split
              · rename_i strict
                simp [strict]
              · split
                · rename_i lenient whole
                  simp [ih, whole, lenient]
                · rename_i broken
                  simp [broken]
          | some check =>
              rw [checkMembers, field, accepts_cons_of_some field, fieldsIn_cons_of_some field]
              dsimp only
              split
              · rename_i again
                exact iff_of_false nofun fun h => h.2 name (by simp) again
              · rename_i unseen
                cases hcheck : check depth value with
                | error fault => exact iff_of_false nofun fun h => nomatch h.1.1.1
                | ok _ =>
                    refine (ih (name :: seen)).trans ⟨?_, ?_⟩
                    · rintro ⟨h, hnew⟩
                      refine ⟨⟨⟨rfl, fun hmem => hnew name hmem (by simp)⟩, h⟩, ?_⟩
                      rintro other (_ | ⟨_, hmem⟩)
                      · exact unseen
                      · exact fun hseen => hnew other hmem (by simp [hseen])
                    · rintro ⟨⟨⟨-, hfirst⟩, h⟩, hnew⟩
                      refine ⟨h, fun other hmem hseen => ?_⟩
                      rcases List.mem_cons.mp hseen with rfl | hseen
                      · exact hfirst hmem
                      · exact hnew other (by simp [hmem]) hseen

/-- The check of a table succeeds just if the record accepts it. -/
theorem checkMembers_eq_ok_iff :
    record.checkMembers leniency depth [] members = .ok () ↔ record.Accepts leniency depth members := by
  simp [checkMembers_eq_ok_iff_of_seen]

theorem decoder_table_eq_ok_iff {title : String} {found : α} :
    record.decoder title leniency depth (.table members) = .ok found ↔
      1 < depth ∧ record.Accepts leniency (depth - 1) members ∧
        record.build (depth - 1) (ofMembers members) = .ok found := by
  rw [decoder, Decoder.nested, ← checkMembers_eq_ok_iff]
  split
  · rename_i flat
    exact iff_of_false nofun fun h => absurd h.1 (by omega)
  · rename_i deep
    rw [and_iff_right (by omega : 1 < depth)]
    cases record.checkMembers leniency (depth - 1) [] members with
    | error fault => exact iff_of_false nofun fun h => nomatch h.1
    | ok _ => exact (and_iff_right rfl).symm

end UsageBoard.Document.Record
