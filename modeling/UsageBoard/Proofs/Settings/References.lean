import UsageBoard.Proofs.Text.Lines
import UsageBoard.Settings.Expansion

/-!
# References to variables

What a line of settings refers to is told apart from how its references are replaced.  A scan cuts a
line into characters and references, the leftmost first; each line has one scan.

## Main statements

* `isScan_iff`: the scan of a line is the only one.
* `expandLine_eq`: a line is replaced part by part, and the first variable that is not set is its fault.
* `expand_replaces_references`: so is a text, line by line.
-/

namespace UsageBoard.Settings

/-! ## Scans -/

inductive Part where
  | char (c : Char)
  | reference (name : List Char)
deriving DecidableEq

namespace Part

def text : Part → List Char
  | char c => [c]
  | reference name => '$' :: '\x7b' :: name ++ ['\x7d']

/-- The variable that is looked up for a part of a line, given what stands before it: none for a
character, and none for a reference that follows a number sign. -/
def lookedUp? (before : List Char) : Part → Option String
  | char _ => none
  | reference name => if '#' ∈ before then none else some (String.ofList name)

/-- What stands for a part in the text that is read. -/
def shown (env : Environment) (before : List Char) (part : Part) : List Char :=
  match part.lookedUp? before with
  | none => part.text
  | some name => ((env.text? name).getD "").toList

@[simp] theorem text_char_append (c : Char) (cs : List Char) : (char c).text ++ cs = c :: cs := rfl

@[simp] theorem text_reference_append (name cs : List Char) :
    (reference name).text ++ cs = '$' :: '\x7b' :: (name ++ '\x7d' :: cs) := by
  simp [text]

end Part

def textOf (parts : List Part) : List Char := parts.flatMap Part.text

@[simp] theorem textOf_nil : textOf [] = [] := rfl

@[simp] theorem textOf_cons (part : Part) (parts : List Part) :
    textOf (part :: parts) = part.text ++ textOf parts := rfl

@[simp] theorem textOf_append (front back : List Part) :
    textOf (front ++ back) = textOf front ++ textOf back := List.flatMap_append

/-- Characters that can stand between the braces of a reference. -/
def IsName (name : List Char) : Prop := name ≠ [] ∧ '\x7d' ∉ name

/-- Whether a reference stands at the front of a text. -/
def StartsReference (cs : List Char) : Prop :=
  ∃ name rest, IsName name ∧ cs = (Part.reference name).text ++ rest

/-- The parts of a line: no reference begins at a character that is a part by itself. -/
structure IsScan (line : List Char) (parts : List Part) : Prop where
  text : line = textOf parts
  names : ∀ name, .reference name ∈ parts → IsName name
  leftmost : ∀ front c back, parts = front ++ .char c :: back → ¬StartsReference (c :: textOf back)

theorem IsScan.tail {line : List Char} {part : Part} {parts : List Part}
    (scan : IsScan line (part :: parts)) : IsScan (textOf parts) parts where
  text := rfl
  names name there := scan.names name (List.mem_cons_of_mem _ there)
  leftmost front c back same := scan.leftmost (part :: front) c back (by rw [same]; rfl)

theorem isScan_nil : IsScan [] [] := ⟨rfl, nofun, by simp⟩

theorem IsScan.char {line : List Char} {parts : List Part} (scan : IsScan line parts) {c : Char}
    (plain : ¬StartsReference (c :: line)) : IsScan (c :: line) (.char c :: parts) where
  text := by rw [scan.text]; rfl
  names name there := scan.names name (by simpa using there)
  leftmost front d back same := by
    cases front with
    | nil =>
        obtain ⟨hc, rfl⟩ := List.cons.inj same
        obtain rfl := Part.char.inj hc
        rwa [← scan.text]
    | cons part front =>
        obtain ⟨-, rfl⟩ := List.cons.inj same
        exact scan.leftmost front d back rfl

theorem IsScan.reference {line name : List Char} {parts : List Part} (scan : IsScan line parts)
    (hname : IsName name) :
    IsScan ((Part.reference name).text ++ line) (.reference name :: parts) where
  text := by rw [scan.text]; rfl
  names other there := by
    rcases List.mem_cons.mp there with same | there
    · rwa [Part.reference.inj same]
    · exact scan.names other there
  leftmost front d back same := by
    cases front with
    | nil => exact absurd (List.cons.inj same).1 nofun
    | cons part front =>
        obtain ⟨-, rfl⟩ := List.cons.inj same
        exact scan.leftmost front d back rfl

/-- A name ends at the first closing brace after it. -/
theorem name_unique {name other rest others : List Char} (hname : '\x7d' ∉ name) (hother : '\x7d' ∉ other)
    (same : name ++ '\x7d' :: rest = other ++ '\x7d' :: others) : name = other ∧ rest = others := by
  induction name generalizing other with
  | nil =>
      cases other with
      | nil => exact ⟨rfl, (List.cons.inj same).2⟩
      | cons d other => exact absurd (List.cons.inj same).1 fun hd => hother (by simp [← hd])
  | cons c name ih =>
      cases other with
      | nil => exact absurd (List.cons.inj same).1 fun hc => hname (by simp [hc])
      | cons d other =>
          obtain ⟨rfl, rest_same⟩ := List.cons.inj same
          obtain ⟨rfl, rfl⟩ := ih (List.not_mem_of_not_mem_cons hname)
            (List.not_mem_of_not_mem_cons hother) rest_same
          exact ⟨rfl, rfl⟩

theorem IsScan.unique {line : List Char} {parts others : List Part} (scan : IsScan line parts)
    (second : IsScan line others) : parts = others := by
  induction parts generalizing line others with
  | nil =>
      cases others with
      | nil => rfl
      | cons other others =>
          have empty : textOf (other :: others) = [] := second.text.symm.trans scan.text
          cases other <;> exact absurd empty nofun
  | cons part parts ih =>
      cases others with
      | nil =>
          have empty : textOf (part :: parts) = [] := scan.text.symm.trans second.text
          cases part <;> exact absurd empty nofun
      | cons other others =>
          have same : textOf (part :: parts) = textOf (other :: others) := scan.text.symm.trans second.text
          suffices part = other ∧ textOf parts = textOf others by
            rw [this.1, ih scan.tail (this.2 ▸ second.tail)]
          -- a character stands against a reference only where a reference begins
          cases part with
          | char c =>
              cases other with
              | char d => simpa using same
              | reference name =>
                  exact absurd ⟨name, textOf others, second.names name (by simp), same⟩
                    (scan.leftmost [] c parts rfl)
          | reference name =>
              cases other with
              | char d =>
                  exact absurd ⟨name, textOf parts, scan.names name (by simp), same.symm⟩
                    (second.leftmost [] d others rfl)
              | reference found =>
                  simp only [textOf_cons, Part.text_reference_append, List.cons.injEq, true_and] at same
                  obtain ⟨rfl, rest⟩ := name_unique (scan.names name (by simp)).2
                    (second.names found (by simp)).2 same
                  exact ⟨rfl, rest⟩

/-! ## The scan of a line -/

/-- Reads the parts of a line; inside a reference, `name` holds what was read of its name, in
reverse. -/
def scanFrom : (name : Option (List Char)) → List Char → List Part
  | _, [] => []
  | some name, c :: rest =>
      if c = '\x7d' then .reference name.reverse :: scanFrom none rest
      else scanFrom (some (c :: name)) rest
  | none, '$' :: '\x7b' :: rest =>
      if closesName rest then scanFrom (some []) rest
      else .char '$' :: scanFrom none ('\x7b' :: rest)
  | none, c :: rest => .char c :: scanFrom none rest

def scan (line : List Char) : List Part := scanFrom none line

theorem closesName_of_isName {name : List Char} (hname : IsName name) (rest : List Char) :
    closesName (name ++ '\x7d' :: rest) := by
  obtain ⟨nonempty, free⟩ := hname
  obtain ⟨c, name, rfl⟩ := List.exists_cons_of_ne_nil nonempty
  have hc : c ≠ '\x7d' := by
    rintro rfl
    exact free (by simp)
  simp [closesName, hc]

theorem startsReference_of_closesName {cs : List Char} (closes : closesName cs) :
    StartsReference ('$' :: '\x7b' :: cs) := by
  simp only [closesName, Bool.and_eq_true, List.contains_iff_mem, bne_iff_ne, ne_eq] at closes
  obtain ⟨closed, first⟩ := closes
  obtain ⟨name, rest, rfl, free⟩ := List.eq_append_cons_of_mem closed
  refine ⟨name, rest, ⟨?_, free⟩, by simp⟩
  rintro rfl
  exact first rfl

theorem scanFrom_some {name : List Char} (free : '\x7d' ∉ name) (read rest : List Char) :
    scanFrom (some read) (name ++ '\x7d' :: rest) =
      .reference (read.reverse ++ name) :: scanFrom none rest := by
  induction name generalizing read with
  | nil => simp [scanFrom]
  | cons c name ih =>
      rw [List.mem_cons, not_or] at free
      rw [List.cons_append, scanFrom, if_neg (Ne.symm free.1), ih free.2]
      simp

@[simp] theorem scan_nil : scan [] = [] := rfl

theorem scan_char {c : Char} {rest : List Char} (plain : ¬StartsReference (c :: rest)) :
    scan (c :: rest) = .char c :: scan rest := by
  rw [scan, scanFrom.eq_def]
  split
  · contradiction
  · contradiction
  · rename_i cs heq
    obtain ⟨rfl, rfl⟩ := List.cons.inj heq
    rw [if_neg (mt startsReference_of_closesName plain)]
    rfl
  · rename_i heq
    obtain ⟨rfl, rfl⟩ := List.cons.inj heq
    rfl

theorem scan_reference {name : List Char} (hname : IsName name) (rest : List Char) :
    scan ((Part.reference name).text ++ rest) = .reference name :: scan rest := by
  rw [Part.text_reference_append, scan, scanFrom, if_pos (closesName_of_isName hname rest),
    scanFrom_some hname.2]
  rfl

/-- A line is empty, or a character or a reference in front of a shorter one. -/
theorem scan_induction {motive : List Char → Prop} (nil : motive [])
    (char : ∀ c rest, ¬StartsReference (c :: rest) → motive rest → motive (c :: rest))
    (reference : ∀ name rest, IsName name → motive rest →
      motive ((Part.reference name).text ++ rest)) (line : List Char) : motive line := by
  induction hlength : line.length using Nat.strongRecOn generalizing line with
  | _ n ih =>
      by_cases starts : StartsReference line
      · obtain ⟨name, rest, hname, rfl⟩ := starts
        refine reference name rest hname (ih rest.length ?_ rest rfl)
        simp only [Part.text_reference_append, List.length_cons, List.length_append] at hlength
        omega
      · cases line with
        | nil => exact nil
        | cons c rest =>
            refine char c rest starts (ih rest.length ?_ rest rfl)
            rw [← hlength]
            exact Nat.lt_succ_self _

theorem isScan_scan (line : List Char) : IsScan line (scan line) := by
  induction line using scan_induction with
  | nil => exact isScan_nil
  | char c rest plain ih =>
      rw [scan_char plain]
      exact ih.char plain
  | reference name rest hname ih =>
      rw [scan_reference hname]
      exact ih.reference hname

theorem isScan_iff {line : List Char} {parts : List Part} : IsScan line parts ↔ parts = scan line :=
  ⟨fun h => h.unique (isScan_scan line), fun h => h ▸ isScan_scan line⟩

/-- Characters that begin no reference are parts by themselves. -/
theorem scan_append_of_notMem {front : List Char} (free : '$' ∉ front) (rest : List Char) :
    scan (front ++ rest) = front.map .char ++ scan rest := by
  induction front with
  | nil => rfl
  | cons c front ih =>
      rw [List.mem_cons, not_or] at free
      have plain : ¬StartsReference (c :: (front ++ rest)) := by
        rintro ⟨name, others, -, same⟩
        exact free.1 (List.cons.inj same).1.symm
      rw [List.cons_append, scan_char plain, ih free.2]
      rfl

/-! ## What is looked up, and what is shown -/

/-- The variables that are looked up for parts, given what stands before them in their line. -/
def variablesFrom : (before : List Char) → List Part → List String
  | _, [] => []
  | before, part :: parts => (part.lookedUp? before).toList ++ variablesFrom (before ++ part.text) parts

/-- The text that is read for parts, given what stands before them in their line. -/
def shownFrom (env : Environment) : (before : List Char) → List Part → List Char
  | _, [] => []
  | before, part :: parts => part.shown env before ++ shownFrom env (before ++ part.text) parts

def lineVariables (line : List Char) : List String := variablesFrom [] (scan line)

def shownLine (env : Environment) (line : List Char) : List Char := shownFrom env [] (scan line)

theorem variablesFrom_append (before : List Char) (front back : List Part) :
    variablesFrom before (front ++ back) =
      variablesFrom before front ++ variablesFrom (before ++ textOf front) back := by
  induction front generalizing before with
  | nil => simp [variablesFrom]
  | cons part front ih => simp [variablesFrom, ih]

theorem shownFrom_append (env : Environment) (before : List Char) (front back : List Part) :
    shownFrom env before (front ++ back) =
      shownFrom env before front ++ shownFrom env (before ++ textOf front) back := by
  induction front generalizing before with
  | nil => simp [shownFrom]
  | cons part front ih => simp [shownFrom, ih]

theorem variablesFrom_of_mem {before : List Char} (marked : '#' ∈ before) (parts : List Part) :
    variablesFrom before parts = [] := by
  induction parts generalizing before with
  | nil => rfl
  | cons part parts ih =>
      rw [variablesFrom, ih (List.mem_append_left _ marked)]
      cases part <;> simp [Part.lookedUp?, marked]

@[simp] theorem textOf_map_char (cs : List Char) : textOf (cs.map .char) = cs := by
  induction cs with
  | nil => rfl
  | cons c cs ih => rw [List.map_cons, textOf_cons, ih, Part.text_char_append]

theorem variablesFrom_map_char (before cs : List Char) : variablesFrom before (cs.map .char) = [] := by
  induction cs generalizing before with
  | nil => rfl
  | cons c cs ih =>
      rw [List.map_cons, variablesFrom, ih]
      rfl

theorem shownFrom_of_variablesFrom {env : Environment} {before : List Char} {parts : List Part}
    (none_there : variablesFrom before parts = []) : shownFrom env before parts = textOf parts := by
  induction parts generalizing before with
  | nil => rfl
  | cons part parts ih =>
      rw [variablesFrom, List.append_eq_nil_iff, Option.toList_eq_nil_iff] at none_there
      rw [shownFrom, ih none_there.2, Part.shown, none_there.1]
      rfl

/-- A result that needs some variables: the first of them that is not set is the fault. -/
def needing {α : Type} (env : Environment) (names : List String) (result : α) : Except String α :=
  match names.find? fun name => (env.text? name).isNone with
  | some name => .error name
  | none => .ok result

variable {env : Environment}

theorem needing_cons {α : Type} (name : String) (names : List String) (result : α) :
    needing env (name :: names) result =
      match env.text? name with
      | none => .error name
      | some _ => needing env names result := by
  rw [needing, List.find?_cons]
  cases env.text? name <;> rfl

theorem map_needing {α β : Type} (f : α → β) (names : List String) (result : α) :
    (needing env names result).map f = needing env names (f result) := by
  rw [needing, needing]
  split <;> rfl

theorem needing_bind {α β : Type} (names others : List String) (result : α) (next : α → β) :
    (needing env names result >>= fun found => needing env others (next found)) =
      needing env (names ++ others) (next result) := by
  simp only [needing, List.find?_append]
  cases names.find? fun name => (env.text? name).isNone <;> rfl

theorem needing_eq_ok_iff {α : Type} {names : List String} {result found : α} :
    needing env names result = .ok found ↔
      (∀ name ∈ names, (env.text? name).isSome) ∧ result = found := by
  rw [needing]
  split
  · rename_i name missing
    refine iff_of_false nofun fun h => ?_
    have unset := List.find?_some missing
    simp [Option.isSome_iff_ne_none.mp (h.1 name (List.mem_of_find?_eq_some missing))] at unset
  · rename_i all
    simp only [List.find?_eq_none, Bool.not_eq_true, Option.isNone_eq_false_iff] at all
    rw [Except.ok.injEq]
    exact (and_iff_right all).symm

/-! ## Lines -/

theorem expandFrom_some {name : List Char} (free : '\x7d' ∉ name) (read rest : List Char) :
    expandFrom env (some read) (name ++ '\x7d' :: rest) =
      expandFrom env (some (name.reverse ++ read)) ('\x7d' :: rest) := by
  induction name generalizing read with
  | nil => rfl
  | cons c name ih =>
      rw [List.mem_cons, not_or] at free
      rw [List.cons_append, expandFrom, if_neg (Ne.symm free.1), ih free.2]
      simp

theorem expandFrom_char {c : Char} {rest : List Char} (plain : ¬StartsReference (c :: rest)) :
    expandFrom env none (c :: rest) =
      if c = '#' then .ok (c :: rest) else (expandFrom env none rest).map (c :: ·) := by
  rw [expandFrom.eq_def]
  split
  · contradiction
  · contradiction
  · rename_i cs heq
    obtain ⟨rfl, rfl⟩ := List.cons.inj heq
    rw [if_neg (mt startsReference_of_closesName plain)]
    rfl
  · rename_i heq
    obtain ⟨rfl, rfl⟩ := List.cons.inj heq
    rfl

theorem expandFrom_reference {name : List Char} (hname : IsName name) (rest : List Char) :
    expandFrom env none ((Part.reference name).text ++ rest) =
      match env.text? (String.ofList name) with
      | none => .error (String.ofList name)
      | some value =>
          if '#' ∈ name then .ok (value.toList ++ rest)
          else (expandFrom env none rest).map (value.toList ++ ·) := by
  rw [Part.text_reference_append, expandFrom, if_pos (closesName_of_isName hname rest),
    expandFrom_some hname.2, expandFrom, if_pos rfl, List.append_nil, List.reverse_reverse]
  cases env.text? (String.ofList name) with
  | none => rfl
  | some value =>
      by_cases hash : '#' ∈ name
      · exact (if_pos (by simpa using hash)).trans (if_pos hash).symm
      · exact (if_neg (by simpa using hash)).trans (if_neg hash).symm

theorem expandFrom_eq {before : List Char} (unmarked : '#' ∉ before) (line : List Char) :
    expandFrom env none line =
      needing env (variablesFrom before (scan line)) (shownFrom env before (scan line)) := by
  induction line using scan_induction generalizing before with
  | nil => rfl
  | char c rest plain ih =>
      rw [expandFrom_char plain, scan_char plain, variablesFrom, shownFrom]
      split
      · rename_i hc
        -- what follows the first number sign stays as it is
        have marked : '#' ∈ before ++ (Part.char c).text := by simp [hc, Part.text]
        have kept := variablesFrom_of_mem marked (scan rest)
        rw [kept, shownFrom_of_variablesFrom kept, ← (isScan_scan rest).text]
        rfl
      · rename_i hc
        have later : '#' ∉ before ++ (Part.char c).text := by simp [unmarked, Ne.symm hc, Part.text]
        rw [ih later, map_needing]
        rfl
  | reference name rest hname ih =>
      rw [expandFrom_reference hname, scan_reference hname, variablesFrom, shownFrom]
      simp only [Part.lookedUp?, Part.shown, if_neg unmarked, Option.toList_some, List.singleton_append,
        needing_cons]
      cases env.text? (String.ofList name) with
      | none => rfl
      | some value =>
          by_cases hash : '#' ∈ name
          · have marked : '#' ∈ before ++ (Part.reference name).text := by simp [hash, Part.text]
            have kept := variablesFrom_of_mem marked (scan rest)
            rw [kept, shownFrom_of_variablesFrom kept, ← (isScan_scan rest).text]
            exact if_pos hash
          · have later : '#' ∉ before ++ (Part.reference name).text := by
              simp [unmarked, hash, Part.text]
            refine (if_neg hash).trans ?_
            rw [ih later, map_needing]
            rfl

theorem expandLine_eq (line : List Char) :
    expandLine env line = needing env (lineVariables line) (shownLine env line) :=
  expandFrom_eq List.not_mem_nil line

theorem shownLine_of_lineVariables {line : List Char} (none_there : lineVariables line = []) :
    shownLine env line = line := by
  rw [shownLine, shownFrom_of_variablesFrom none_there]
  exact (isScan_scan line).text.symm

/-- A line with one reference before its first number sign. -/
theorem lineVariables_of_reference {name front back : List Char} (hname : IsName name) (dollar : '$' ∉ front)
    (mark : '#' ∉ front) (others : ∀ before, variablesFrom before (scan back) = []) :
    lineVariables (front ++ ((Part.reference name).text ++ back)) = [String.ofList name] := by
  rw [lineVariables, scan_append_of_notMem dollar, scan_reference hname, variablesFrom_append,
    variablesFrom_map_char, variablesFrom, others, textOf_map_char]
  simp [Part.lookedUp?, mark]

theorem shownLine_of_reference {name front back : List Char} (hname : IsName name) (dollar : '$' ∉ front)
    (mark : '#' ∉ front) (others : ∀ before, variablesFrom before (scan back) = []) {value : String}
    (set : env.text? (String.ofList name) = some value) :
    shownLine env (front ++ ((Part.reference name).text ++ back)) = front ++ (value.toList ++ back) := by
  rw [shownLine, scan_append_of_notMem dollar, scan_reference hname, shownFrom_append,
    shownFrom_of_variablesFrom (variablesFrom_map_char [] front), shownFrom,
    shownFrom_of_variablesFrom (others _), textOf_map_char, ← (isScan_scan back).text, Part.shown]
  simp [Part.lookedUp?, mark, set]

/-! ## Texts -/

/-- The variables that are looked up for a text, from left to right. -/
def textVariables (cs : List Char) : List String := (Text.lines cs).flatMap lineVariables

/-- The text that is read for a text. -/
def shownText (env : Environment) (cs : List Char) : List Char :=
  Text.join '\n' ((Text.lines cs).map (shownLine env))

theorem mapM_expandLine (lines : List (List Char)) :
    lines.mapM (expandLine env) = needing env (lines.flatMap lineVariables) (lines.map (shownLine env)) := by
  induction lines with
  | nil => rfl
  | cons line lines ih =>
      have later (first : List Char) :
          (lines.mapM (expandLine env) >>= fun others => pure (first :: others)) =
            needing env (lines.flatMap lineVariables) (first :: lines.map (shownLine env)) := by
        rw [ih, ← map_needing (first :: ·)]
        rfl
      simp only [List.mapM_cons, expandLine_eq, later, needing_bind]
      rfl

theorem expand_eq (text : String) :
    expand env text =
      needing env (textVariables text.toList) (String.ofList (shownText env text.toList)) := by
  rw [expand, mapM_expandLine, map_needing]
  rfl

theorem shownText_eq {cs last : List Char} {ended : List (List Char)} (cut : Text.IsCut cs ended last) :
    shownText env cs =
      (ended.flatMap fun line => shownLine env (Text.withoutReturn line) ++ ['\n']) ++
        shownLine env last := by
  rw [shownText, cut.lines_eq, List.map_append, List.map_singleton, Text.join_concat, List.map_map,
    List.flatMap_map]
  rfl

theorem textVariables_append {before rest : List Char} {ended : List (List Char)}
    (cut : Text.IsCut before ended []) :
    textVariables (before ++ rest) = textVariables before ++ textVariables rest := by
  obtain ⟨others, last, second⟩ := Text.exists_isCut rest
  simp only [textVariables, (cut.append second).lines_eq, cut.lines_eq, second.lines_eq,
    List.map_append, List.flatMap_append, List.append_assoc]
  rfl

theorem shownText_append {before rest : List Char} {ended : List (List Char)}
    (cut : Text.IsCut before ended []) :
    shownText env (before ++ rest) = shownText env before ++ shownText env rest := by
  obtain ⟨others, last, second⟩ := Text.exists_isCut rest
  simp only [shownText_eq (cut.append second), shownText_eq cut, shownText_eq second,
    List.flatMap_append, List.append_assoc]
  rfl

theorem withoutReturn_of_notMem {line : List Char} (free : '\r' ∉ line) :
    Text.withoutReturn line = line := by
  rw [Text.withoutReturn, if_neg fun last => free (List.mem_of_getLast? last)]

/-- The lines of a text without references are read as they are. -/
theorem shownText_of_unreferenced {cs : List Char} (none_there : textVariables cs = []) :
    shownText env cs = Text.join '\n' (Text.lines cs) := by
  rw [textVariables, List.flatMap_eq_nil_iff] at none_there
  rw [shownText, List.map_congr_left fun line there => shownLine_of_lineVariables (none_there line there),
    List.map_id']

/-- A text without carriage returns and without references is read as it is. -/
theorem shownText_of_textVariables {cs : List Char} (free : '\r' ∉ cs)
    (none_there : textVariables cs = []) : shownText env cs = cs := by
  obtain ⟨ended, last, cut⟩ := Text.exists_isCut cs
  have plain : ∀ line ∈ ended, Text.withoutReturn line = line := by
    intro line there
    refine withoutReturn_of_notMem fun inside => free ?_
    rw [cut.text]
    exact List.mem_append_left _ (List.mem_flatMap.mpr ⟨line, there, by simp [inside]⟩)
  rw [shownText_of_unreferenced none_there, cut.lines_eq, List.map_congr_left plain, List.map_id',
    Text.join_concat]
  exact cut.text.symm

theorem textVariables_of_notMem {cs : List Char} (free : '\n' ∉ cs) : textVariables cs = lineVariables cs := by
  rw [textVariables, Text.lines_of_notMem free, List.flatMap_singleton]

theorem shownText_of_notMem {cs : List Char} (free : '\n' ∉ cs) : shownText env cs = shownLine env cs := by
  rw [shownText, Text.lines_of_notMem free, List.map_singleton]
  exact List.intercalate_singleton

theorem textVariables_feed {line : List Char} (free : '\n' ∉ line) (rest : List Char) :
    textVariables (line ++ '\n' :: rest) = lineVariables (Text.withoutReturn line) ++ textVariables rest := by
  rw [textVariables, Text.lines_append_feed free, List.flatMap_cons]
  rfl

theorem shownText_feed {line : List Char} (free : '\n' ∉ line) (rest : List Char) :
    shownText env (line ++ '\n' :: rest) =
      shownLine env (Text.withoutReturn line) ++ '\n' :: shownText env rest := by
  rw [shownText, Text.lines_append_feed free, List.map_cons,
    Text.join_cons _ (by simpa using Text.lines_ne_nil rest)]
  rfl

/-- The first of some variables that is not set. -/
theorem needing_cases {α : Type} (names : List String) (result : α) :
    (needing env names result = .ok result ∧ ∀ name ∈ names, (env.text? name).isSome) ∨
      ∃ before name after, names = before ++ name :: after ∧
        (∀ other ∈ before, (env.text? other).isSome) ∧ env.text? name = none ∧
        needing env names result = .error name := by
  cases found : names.find? fun name => (env.text? name).isNone with
  | none =>
      have all : needing env names result = .ok result := by rw [needing, found]
      exact .inl ⟨all, (needing_eq_ok_iff.mp all).1⟩
  | some name =>
      obtain ⟨unset, before, after, rfl, set⟩ := List.find?_eq_some_iff_append.mp found
      refine .inr ⟨before, name, after, rfl, ?_, ?_, by rw [needing, found]⟩
      · simpa using set
      · simpa using unset

/-- The lines of a text, each without the carriage return before its line feed, are replaced part by
part; the references that start before the first number sign of their line give the values of their
variables, all else stays.  The first variable that is not set is the fault. -/
theorem expand_replaces_references (env : Environment) (text : String) :
    ∃ ended last, (∀ others other,
        Text.IsCut text.toList others other ↔ others = ended ∧ other = last) ∧
      (∀ line parts, IsScan line parts ↔ parts = scan line) ∧
      let lines := ended.map Text.withoutReturn ++ if last = [] then [] else [last]
      let names := lines.flatMap lineVariables
      let shown := Text.join '\n' (lines.map (shownLine env)) ++
        if text.toList.getLast? = some '\n' then ['\n'] else []
      ((expand env text = .ok (String.ofList shown) ∧ ∀ name ∈ names, (env.text? name).isSome) ∨
        ∃ before name after, names = before ++ name :: after ∧
          (∀ other ∈ before, (env.text? other).isSome) ∧ env.text? name = none ∧
          expand env text = .error name) ∧
      ('\r' ∉ text.toList → names = [] → expand env text = .ok text) := by
  obtain ⟨ended, last, cut⟩ := Text.exists_isCut text.toList
  refine ⟨ended, last, fun others other => ⟨fun second => second.unique cut, ?_⟩,
    fun line parts => isScan_iff, ?_⟩
  · rintro ⟨rfl, rfl⟩
    exact cut
  intro lines names shown
  have hnames : textVariables text.toList = names := by
    rw [textVariables, cut.lines_eq]
    by_cases hlast : last = []
    · simp only [names, lines, hlast, List.flatMap_append, if_true]
      rfl
    · simp only [names, lines, hlast, if_false]
  have hshown : shownText env text.toList = shown := by
    rw [shownText, cut.lines_eq, List.map_append]
    by_cases hlast : last = []
    · have ends : text.toList.getLast? = some '\n' ↔ ended ≠ [] := by
        simp [cut.getLast?_eq_iff, hlast]
      simp only [shown, lines, hlast, ends, if_true, List.append_nil]
      refine (Text.join_concat_nil _).trans ?_
      by_cases hended : ended = [] <;> simp [hended]
    · have ends : text.toList.getLast? ≠ some '\n' := by simp [cut.getLast?_eq_iff, hlast]
      simp only [shown, lines, hlast, ends, if_false, List.append_nil, List.map_append]
  rw [expand_eq, hnames, hshown]
  refine ⟨needing_cases names _, fun free none_there => ?_⟩
  rw [none_there, ← hshown, shownText_of_textVariables free (hnames.trans none_there)]
  exact congrArg Except.ok String.ofList_toList

end UsageBoard.Settings
