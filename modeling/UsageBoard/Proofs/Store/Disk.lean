import UsageBoard.Proofs.Json.RoundTrip
import UsageBoard.Store.Local

/-!
# The store on a disk

What a file holds is told apart from how the store reads it.  A `Disk` is a value on which every
attempt to write may fail.

## Main statements

* `toOption_ofText`: a text decodes to entries if it is a JSON object of strings.
* `held_toUTF8`: entries are read back from the file into which they are written.
* `Disk.attempted_write`: an attempt to write fails and leaves the files alone, or puts the entries
  into the file.
-/

namespace UsageBoard.Store

open UsageBoard.Document (Node Decoder Reading depthLimit)
open UsageBoard.Files (Fault)

/-! ## The text of entries -/

theorem membersLegible_map_text (pairs : List (String × String)) :
    Json.MembersLegible (pairs.map fun (key, value) => (key, .text value)) := by
  induction pairs with
  | nil => trivial
  | cons pair rest ih => exact ⟨trivial, ih⟩

theorem memberNodes_map_text (pairs : List (String × String)) :
    Json.memberNodes (pairs.map fun (key, value) => (key, .text value)) =
      pairs.map fun (key, value) => (some key, .text value) := by
  induction pairs with
  | nil => rfl
  | cons pair rest ih => rw [List.map_cons, Json.memberNodes, ih]; rfl

def textMembers? : Node → Option (List (String × String))
  | .table members => members.mapM fun
      | (some key, .text value) => some (key, value)
      | _ => none
  | _ => none

theorem textMembers?_table (pairs : List (String × String)) :
    textMembers? (.table (pairs.map fun (key, value) => (some key, .text value))) = some pairs := by
  induction pairs with
  | nil => rfl
  | cons pair rest ih =>
      rw [textMembers?] at ih ⊢
      rw [List.map_cons, List.mapM_cons, ih]
      rfl

/-- Decoding finds the members of a table of texts, and no others. -/
theorem toOption_members_string {depth : Nat} (h : 1 < depth) (node : Node) :
    (Decoder.members Decoder.string depth node).toOption = textMembers? node := by
  cases node with
  | table members =>
      rw [Decoder.members, Decoder.nested, if_neg (by omega), textMembers?]
      induction members with
      | nil => rfl
      | cons member rest ih =>
          rw [List.mapM_cons, List.mapM_cons, ← ih]
          rcases member with ⟨_ | key, value⟩
          · rfl
          · cases value
            case text value =>
              simp only [Decoder.string]
              generalize List.mapM (m := Except _) _ rest = others
              cases others <;> rfl
            all_goals rfl
  | _ => rfl

def objectOfTexts? (text : String) : Option (List (String × String)) :=
  let reading := Json.read text
  if reading.complete then textMembers? reading.root else none

/-- A text decodes to entries if it is a JSON object of strings, and to no entries otherwise. -/
theorem toOption_ofText (text : String) :
    (Entries.ofText text).toOption = (objectOfTexts? text).map Entries.ofPairs := by
  have hmembers := toOption_members_string (show 1 < depthLimit by decide) (Json.read text).root
  rw [objectOfTexts?, ← hmembers, Entries.ofText, Json.decode, Reading.decode, Entries.decoder]
  cases Decoder.members Decoder.string depthLimit (Json.read text).root <;>
    cases (Json.read text).complete <;> rfl

theorem objectOfTexts?_text (entries : Entries) : objectOfTexts? entries.text = some entries.pairs := by
  have hread : Json.read entries.text = ⟨entries.toJson.node, true⟩ :=
    Json.read_pretty (membersLegible_map_text entries.pairs)
  have hmembers := textMembers?_table entries.pairs
  rw [← memberNodes_map_text] at hmembers
  rw [objectOfTexts?, hread]
  exact hmembers

/-! ## What a file holds -/

/-- The entries that a file holds: those of a JSON object of strings, and none in any other case. -/
def held (found : Except Fault ByteArray) : Entries :=
  match found with
  | .error _ => Entries.empty
  | .ok contents =>
      match (String.fromUTF8? contents).bind objectOfTexts? with
      | none => Entries.empty
      | some pairs => Entries.ofPairs pairs

theorem entriesOf_eq_held (found : Except Fault ByteArray) :
    (LocalStore.entriesOf found).toOption.getD Entries.empty = held found := by
  cases found with
  | error fault => cases fault <;> rfl
  | ok contents =>
      simp only [LocalStore.entriesOf, held, Files.text?]
      cases String.fromUTF8? contents with
      | none => rfl
      | some text =>
          have htext := toOption_ofText text
          simp only [Option.bind_some]
          cases hentries : Entries.ofText text with
          | error fault =>
              rw [hentries] at htext
              rw [Option.map_eq_none_iff.mp htext.symm]
              rfl
          | ok entries =>
              rw [hentries] at htext
              obtain ⟨pairs, hpairs, rfl⟩ := Option.map_eq_some_iff.mp htext.symm
              rw [hpairs]
              rfl

theorem fromUTF8?_toUTF8 (text : String) : String.fromUTF8? text.toUTF8 = some text := by
  rw [String.toUTF8_eq_toByteArray, String.fromUTF8?, dif_pos text.isValidUTF8]
  rfl

/-- Entries are read back from the file into which they are written. -/
theorem held_toUTF8 (entries : Entries) : held (.ok entries.text.toUTF8) = entries := by
  rw [held, fromUTF8?_toUTF8, Option.bind_some, objectOfTexts?_text]
  exact entries.ofPairs_pairs

/-! ## Disks -/

structure Disk where
  files : String → Except Fault ByteArray
  /-- How the attempts to come end; those beyond the list succeed. -/
  outcomes : List (Except Fault Unit)

namespace Disk

/-- An attempt at a change; one that fails leaves the files as they are. -/
def attempt (change : Disk → Disk) : StateM Disk (Except Fault Unit) := fun disk =>
  let later := { disk with outcomes := disk.outcomes.tail }
  match disk.outcomes.head?.getD (.ok ()) with
  | .error fault => (.error fault, later)
  | .ok () => (.ok (), change later)

def put (path contents : String) (disk : Disk) : Disk :=
  { disk with files := fun other => if other = path then .ok contents.toUTF8 else disk.files other }

/-- The means to deal with a disk; there is no backend and no log. -/
def effects : Effects (StateM Disk) where
  readFile path := fun disk => (disk.files path, disk)
  writeFile path contents := attempt (put path contents)
  makeFolders _ := attempt id
  fileExists path := fun disk => ((disk.files path).toOption.isSome, disk)
  send _ := pure none
  now := pure 0
  log _ := pure ()

inductive Attempted (path : String) (entries : Entries) (earlier : Disk) :
    Except StoreError Unit → Disk → Prop where
  | failed {later : Disk} (fault : StoreError) (files : later.files = earlier.files) :
      Attempted path entries earlier (.error fault) later
  | saved {later : Disk} (files : later.files path = .ok entries.text.toUTF8) :
      Attempted path entries earlier (.ok ()) later

theorem Attempted.of_same {path : String} {entries : Entries} {earlier same later : Disk}
    {outcome : Except StoreError Unit} (h : Attempted path entries same outcome later)
    (files : same.files = earlier.files) : Attempted path entries earlier outcome later := by
  cases h with
  | failed fault hfiles => exact .failed fault (hfiles.trans files)
  | saved hfiles => exact .saved hfiles

theorem attempted_writeFile (path : String) (entries : Entries) (disk : Disk) :
    let attempted := (effects.writeFile path entries.text).run disk
    Attempted path entries disk (attempted.1.mapError fun fault => ⟨path, fault⟩) attempted.2 := by
  simp only [effects, attempt, StateT.run]
  split
  · exact .failed _ rfl
  · exact .saved (if_pos rfl)

theorem attempted_write (path : String) (entries : Entries) (disk : Disk) :
    let attempted := (LocalStore.write effects path entries).run disk
    Attempted path entries disk attempted.1 attempted.2 := by
  simp only [LocalStore.write]
  generalize (Files.parent? path).getD "" = folder
  by_cases hfolder : folder = ""
  · simp only [hfolder, if_true, StateT.run_bind, StateT.run_pure, pure_bind]
    exact attempted_writeFile path entries disk
  · simp only [hfolder, if_false, StateT.run_bind]
    have hmade : (effects.makeFolders folder).run disk =
        (disk.outcomes.head?.getD (.ok ()), { disk with outcomes := disk.outcomes.tail }) := by
      simp only [effects, attempt, StateT.run]
      split
      · rename_i heq
        rw [heq]
      · rename_i heq
        rw [heq]
        rfl
    rw [hmade]
    cases disk.outcomes.head?.getD (.ok ()) with
    | error fault => exact .failed _ rfl
    | ok done =>
        have hwrite :=
          attempted_writeFile path entries { disk with outcomes := disk.outcomes.tail }
        exact hwrite.of_same rfl

end Disk

end UsageBoard.Store
