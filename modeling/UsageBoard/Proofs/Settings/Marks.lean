import UsageBoard.Proofs.Outcome
import UsageBoard.Proofs.Settings.References
import UsageBoard.Settings.Reading
import UsageBoard.Url.Alphabets

/-!
# References and number signs

A reference is replaced just if no number sign stands before it on its line.  That is so wherever it
stands: in a comment, in a string, or in a string after a number sign of that string.

## Main statements

* `ofText_eq`: settings are read from the replaced text, if all variables that are looked up are set.
* `ReferenceIn.replaced_iff_unmarked`: what a reference gives to the text that is read.
* `ReferenceIn.kept_in_string`: a number sign in a string keeps the rest of the string from being
  replaced.
-/

namespace UsageBoard.Settings

open UsageBoard.Text (join)

variable {env : Environment} {text : String}

section

variable [Url.DomainNames]

/-- The settings of a text in which the references are replaced. -/
def ofExpanded (cs : List Char) : Except SettingsError Settings := do
  let settings ← (Toml.decode decoder (String.ofList cs)).mapError .malformed
  settings.check.mapError .unusable
  return settings

theorem ofText_eq (env : Environment) (text : String) :
    ofText env text =
      (needing env (textVariables text.toList) (shownText env text.toList)).mapError .missingVariable
        >>= ofExpanded := by
  rw [ofText, expand_eq, ← map_needing String.ofList]
  cases needing env (textVariables text.toList) (shownText env text.toList) <;> rfl

theorem ofExpanded_eq_ok_iff {cs : List Char} {settings : Settings} :
    ofExpanded cs = .ok settings ↔
      Toml.decode decoder (String.ofList cs) = .ok settings ∧ settings.check = .ok () := by
  rw [ofExpanded]
  cases Toml.decode decoder (String.ofList cs) with
  | error fault => exact iff_of_false nofun fun h => nomatch h.1
  | ok found =>
      change (found.check.mapError SettingsError.unusable >>= fun _ => Except.ok found) = .ok settings ↔ _
      rw [Except.ok.injEq]
      constructor
      · intro read
        obtain ⟨_, checked, same⟩ := exists_of_bind_eq_ok read
        obtain rfl := Except.ok.inj same
        refine ⟨rfl, ?_⟩
        cases result : found.check with
        | error misfit =>
            rw [result] at checked
            cases checked
        | ok _ => rfl
      · rintro ⟨rfl, checked⟩
        rw [checked]
        rfl

end

/-- A reference of a text: the lines above its line, the parts of that line around it, and the lines
below. -/
structure ReferenceIn (text : String) where
  above : List (List Char)
  front : List Part
  name : List Char
  back : List Part
  below : List (List Char)
  lines_eq :
    Text.lines text.toList = above ++ textOf (front ++ .reference name :: back) :: below
  isScan : IsScan (textOf (front ++ .reference name :: back)) (front ++ .reference name :: back)

namespace ReferenceIn

variable (reference : ReferenceIn text)

def part : Part := .reference reference.name

def variableName : String := String.ofList reference.name

/-- Whether a number sign stands before the reference on its line. -/
def FollowsMark : Prop := '#' ∈ textOf reference.front

/-- The variables that are looked up for the other references. -/
def others : List String :=
  (reference.above.flatMap lineVariables ++ variablesFrom [] reference.front) ++
    (variablesFrom (textOf reference.front ++ reference.part.text) reference.back ++
      reference.below.flatMap lineVariables)

/-- What is read for the text before the reference. -/
def shownBefore (env : Environment) : List Char :=
  (reference.above.flatMap fun line => shownLine env line ++ ['\n']) ++ shownFrom env [] reference.front

/-- What is read for the text after the reference. -/
def shownAfter (env : Environment) : List Char :=
  shownFrom env (textOf reference.front ++ reference.part.text) reference.back ++
    reference.below.flatMap fun line => '\n' :: shownLine env line

variable {reference}

theorem textVariables_eq :
    ∃ front back, reference.others = front ++ back ∧
      textVariables text.toList =
        front ++ (reference.part.lookedUp? (textOf reference.front)).toList ++ back := by
  refine ⟨_, _, rfl, ?_⟩
  rw [textVariables, reference.lines_eq, List.flatMap_append, List.flatMap_cons, lineVariables,
    ← isScan_iff.mp reference.isScan, variablesFrom_append, variablesFrom]
  simp only [List.nil_append, List.append_assoc, part]

theorem shownText_eq :
    shownText env text.toList =
      reference.shownBefore env ++ reference.part.shown env (textOf reference.front) ++
        reference.shownAfter env := by
  rw [shownText, reference.lines_eq, List.map_append, List.map_cons, Text.join_middle, List.flatMap_map,
    List.flatMap_map, shownLine, ← isScan_iff.mp reference.isScan, shownFrom_append, shownFrom]
  simp only [shownBefore, shownAfter, List.nil_append, List.append_assoc, part]

section

variable [Url.DomainNames]

/-- Settings are read with some characters in the place of a reference, unless the variable of another
one is not set. -/
def Gives (reference : ReferenceIn text) (env : Environment) (cs : List Char) : Prop :=
  (∃ missing ∈ reference.others, env.text? missing = none ∧
      ofText env text = .error (.missingVariable missing)) ∨
    (∀ name ∈ reference.others, (env.text? name).isSome) ∧
      ofText env text = ofExpanded (reference.shownBefore env ++ cs ++ reference.shownAfter env)

/-- The text is read with what stands for the reference, unless a variable is not set. -/
theorem ofText_cases (reference : ReferenceIn text) (env : Environment) :
    (∃ missing ∈ textVariables text.toList, env.text? missing = none ∧
        ofText env text = .error (.missingVariable missing)) ∨
      (∀ name ∈ textVariables text.toList, (env.text? name).isSome) ∧
        ofText env text = ofExpanded (reference.shownBefore env ++
          reference.part.shown env (textOf reference.front) ++ reference.shownAfter env) := by
  rw [ofText_eq]
  rcases needing_cases (textVariables text.toList) (shownText env text.toList) with
    ⟨result, set⟩ | ⟨before, missing, after, names, -, unset, result⟩
  · rw [result, shownText_eq]
    exact .inr ⟨set, rfl⟩
  · rw [result]
    exact .inl ⟨missing, by simp [names], unset, rfl⟩

/-- A reference is read as it stands if a number sign stands before it on its line, whatever that sign
is part of.  Any other reference gives the value of its variable, and is a fault without one. -/
theorem replaced_iff_unmarked (reference : ReferenceIn text) (env : Environment) :
    (reference.FollowsMark → reference.Gives env reference.part.text) ∧
      (¬reference.FollowsMark →
        match env.text? reference.variableName with
        | none => ∃ missing, env.text? missing = none ∧
            ofText env text = .error (.missingVariable missing)
        | some value => reference.Gives env value.toList) := by
  obtain ⟨front, back, others, names⟩ := reference.textVariables_eq
  have found := reference.ofText_cases env
  rw [names] at found
  constructor
  · intro marked
    have none_there : reference.part.lookedUp? (textOf reference.front) = none := if_pos marked
    rw [none_there, Option.toList_none, List.append_nil, ← others, Part.shown, none_there] at found
    exact found
  · intro unmarked
    have there : reference.part.lookedUp? (textOf reference.front) = some reference.variableName :=
      if_neg unmarked
    rw [there, Option.toList_some, Part.shown, there] at found
    cases result : env.text? reference.variableName with
    | none =>
        rcases found with ⟨missing, -, unset, fault⟩ | ⟨set, -⟩
        · exact ⟨missing, unset, fault⟩
        · have isSet := set reference.variableName (by simp)
          rw [result] at isSet
          cases isSet
    | some value =>
        rcases found with ⟨missing, listed, unset, fault⟩ | ⟨set, read⟩
        · refine .inl ⟨missing, ?_, unset, fault⟩
          have other : missing ≠ reference.variableName := by
            rintro rfl
            simp [result] at unset
          simpa [others, other] using listed
        · refine .inr ⟨fun name listed => set name ?_, ?_⟩
          · rw [others] at listed
            rcases List.mem_append.mp listed with listed | listed <;> simp [listed]
          · simpa only [result, Option.getD_some] using read

end

/-! ## A number sign in a string -/

/-- A token with a number sign and a reference. -/
def markedToken : String := "a#$\x7bHARBOR_TOKEN\x7d"

def markedText : String := "[backend]\naccess_token = \"" ++ markedToken ++ "\"\n"

def markedReference : ReferenceIn markedText where
  above := ["[backend]".toList]
  front := "access_token = \"a#".toList.map .char
  name := "HARBOR_TOKEN".toList
  back := [.char '"']
  below := [[]]
  lines_eq := by decide +kernel
  isScan := isScan_iff.mpr (by decide +kernel)

/-- The token in settings, if they are read. -/
def token? (read : Except SettingsError Settings) : Option (Option String) :=
  read.toOption.map fun settings => settings.backend.accessToken

open scoped Url.Alphabets in
/-- In a string a number sign begins no comment: the text as it stands is well formed, and the reference
is part of the token in it.  But the reference is neither replaced nor needed. -/
theorem kept_in_string :
    let unset : Environment := ⟨fun _ => none, none, 0⟩
    let set : Environment := ⟨fun _ => some ⟨"secret", true⟩, none, 0⟩
    unset.text? markedReference.variableName = none ∧
      set.text? markedReference.variableName = some "secret" ∧
      token? (ofExpanded markedText.toList) = some (some markedToken) ∧
      token? (ofText unset markedText) = some (some markedToken) ∧
      token? (ofText set markedText) = some (some markedToken) := by
  refine ⟨by decide +kernel, by decide +kernel, by decide +kernel, ?_, ?_⟩
  · decide +kernel
  · decide +kernel

end ReferenceIn

end UsageBoard.Settings
