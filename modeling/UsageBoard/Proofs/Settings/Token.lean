import UsageBoard.Proofs.Document.Replaced
import UsageBoard.Proofs.Settings.Marks
import UsageBoard.Proofs.Toml.Assignments
import UsageBoard.Proofs.Toml.Holes

/-!
# The token of the backend

A token reaches the settings in two passes: the references of a text are replaced, and the text is read.
Neither pass changes a token that has no quote, no backslash and no control character, whatever else is in
it: what was replaced is not searched again, and in a string nothing begins a comment or a reference.

## Main statements

* `TokenLine.shownText_text`: what is read for a text with a line of the token.
* `TokenLine.exists_document`: the document of a text does not depend on the token but for the token.
* `TokenLine.token_passes_unchanged`: the token is the value of the variable, and nothing else changes.
-/

namespace UsageBoard.Settings

open UsageBoard.Document (Node Lookup Record)
open UsageBoard.Toml (StringLine EndsLine IsString withoutMark withoutBreak reach?)

variable {env : Environment}

/-! ## Settings with another token -/

def withToken (settings : Settings) (token : String) : Settings :=
  { settings with backend := { settings.backend with accessToken := some token } }

theorem check_withToken [Url.DomainNames] (settings : Settings) (token : String) :
    (settings.withToken token).check = settings.check := rfl

section Decoding

variable {depth : Nat} {node : Node} {token : String} {lookup later : Lookup}

theorem Backend.related_record
    (differ : Lookup.DifferAt "access_token" node (.text token) lookup later) :
    Backend.record.Related depth lookup later fun backend other =>
      other = { backend with accessToken := some token } := by
  have named : (Record.optional "access_token" Document.Decoder.string).Related depth lookup later
      fun _ other => other = some token :=
    Record.Related.field differ _ fun _ _ => ⟨some token, rfl, rfl⟩
  refine Record.Related.seq (Record.Related.seq (Record.Related.seq (Record.Related.seq
    (Record.Related.map Backend.mk ?_ (Record.Related.other differ (by decide) _ _)) named)
    (Record.Related.other differ (by decide) _ _)) (Record.Related.other differ (by decide) _ _))
    (Record.Related.other differ (by decide) _ _)
  rintro url _ rfl _ _ rfl user _ rfl admin _ rfl timeout _ rfl
  rfl

/-- The members of the backend around its token, and the members of the settings around the backend. -/
structure TokenNode where
  before : List (Option String × Node)
  inside_before : List (Option String × Node)
  inside_after : List (Option String × Node)
  after : List (Option String × Node)

namespace TokenNode

variable (around : TokenNode)

def backend (node : Node) : Node :=
  .table (around.inside_before ++ (some "access_token", node) :: around.inside_after)

def root (node : Node) : Node :=
  .table (around.before ++ (some "backend", around.backend node) :: around.after)

theorem decoder_backend {backend : Backend} (decoded : Backend.decoder depth (around.backend node) = .ok backend)
    (token : String) :
    Backend.decoder depth (around.backend (.text token)) = .ok { backend with accessToken := some token } := by
  have related : ∀ lookup later, Lookup.DifferAt "access_token" node (.text token) lookup later →
      Backend.record.Related (depth - 1) lookup later fun backend other =>
        other = { backend with accessToken := some token } := fun _ _ => Backend.related_record
  obtain ⟨other, decoded, rfl⟩ := Record.Related.decoder rfl (fun _ => rfl) related decoded
  exact decoded

theorem related_record {token : String}
    (differ : Lookup.DifferAt "backend" (around.backend node) (around.backend (.text token)) lookup later) :
    record.Related depth lookup later fun settings other => other = settings.withToken token := by
  have named : (Record.defaulted "backend" Backend.decoder Backend.default).Related depth lookup later
      fun backend other => other = { backend with accessToken := some token } :=
    Record.Related.field differ _ fun backend decoded =>
      ⟨_, around.decoder_backend decoded token, rfl⟩
  refine Record.Related.seq (Record.Related.seq (Record.Related.seq
    (Record.Related.map Settings.mk ?_ named)
    (Record.Related.other differ (by decide) _ _)) (Record.Related.other differ (by decide) _ _))
    (Record.Related.other differ (by decide) _ _)
  rintro backend _ rfl display _ rfl store _ rfl logging _ rfl
  rfl

theorem decoder_root {settings : Settings} (decoded : decoder depth (around.root node) = .ok settings)
    (token : String) : decoder depth (around.root (.text token)) = .ok (settings.withToken token) := by
  have typed : (Backend.decoder (depth - 1) (around.backend node)).map (fun _ => ()) = .ok () →
      (Backend.decoder (depth - 1) (around.backend (.text token))).map (fun _ => ()) = .ok () := by
    intro was
    obtain ⟨backend, decoded, -⟩ := exists_of_map_eq_ok was
    rw [around.decoder_backend decoded token]
    rfl
  have related : ∀ lookup later,
      Lookup.DifferAt "backend" (around.backend node) (around.backend (.text token)) lookup later →
        record.Related (depth - 1) lookup later fun settings other => other = settings.withToken token :=
    fun _ _ => around.related_record
  obtain ⟨other, decoded, rfl⟩ := Record.Related.decoder rfl typed related decoded
  exact decoded

end TokenNode

end Decoding

/-! ## Texts with a line of the token -/

/-- A text of settings in which the table of the backend is open at a line that gives it a token, and in
which no reference stands outside that line. -/
structure TokenLine where
  before : List Char
  line : StringLine
  after : List Char
  before_ended : before.getLast? = some '\n'
  before_free : textVariables before = []
  opened : ∃ root origin inner,
    reach? ([], []) (withoutMark (Text.join '\n' (Text.lines before))) = some (["backend"], root) ∧
      root.lookup "backend" = some (.table origin inner)
  key_eq : line.key = "access_token".toList
  ends : EndsLine after
  after_free : textVariables after = []

namespace TokenLine

variable (place : TokenLine) {raw name : List Char} {token value : String}

/-- The text with some characters between the quotes of the line. -/
def text (raw : List Char) : String :=
  String.ofList (place.before ++ (place.line.text raw ++ place.after))

/-- A token that is spelled out: a string in the place of the token, in which there is no reference. -/
structure Spells (raw : List Char) (token : String) : Prop where
  isString : IsString raw token
  unreferenced : lineVariables (place.line.text raw) = []

/-- What is read for what follows the line. -/
def shownAfter : List Char :=
  if place.after = [] then [] else '\n' :: Text.join '\n' (Text.lines (withoutBreak place.after))

/-- The text that is read, with some characters between the quotes of the line. -/
def shown (raw : List Char) : List Char :=
  Text.join '\n' (Text.lines place.before) ++ (place.line.text raw ++ place.shownAfter)

/-! ### What is read -/

theorem feed_notMem_text (free : '\n' ∉ raw) : '\n' ∉ place.line.text raw := by
  have front : '\n' ∉ place.line.front := place.line.notMem_front (by decide) (by decide) (by decide)
  have back : '\n' ∉ '"' :: place.line.back := place.line.notMem_back (by decide) (by decide)
  rw [StringLine.text, List.mem_append, List.mem_append]
  exact fun there => there.elim front fun there => there.elim free back

theorem variablesFrom_back (before : List Char) : variablesFrom before (scan ('"' :: place.line.back)) = [] := by
  have dollar : '$' ∉ '"' :: place.line.blanks := by
    intro there
    have blank := place.line.blanks_blank '$' (by simpa using there)
    exact absurd blank (by decide)
  rw [StringLine.back, ← List.cons_append, scan_append_of_notMem dollar, variablesFrom_append,
    variablesFrom_map_char, List.nil_append]
  cases hcomment : place.line.comment with
  | nil => rfl
  | cons c comment =>
      obtain rfl : c = '#' := place.line.comment_marked c (by rw [hcomment]; rfl)
      have plain : ¬StartsReference ('#' :: comment) := by
        rintro ⟨name, rest, -, same⟩
        exact absurd (List.cons.inj same).1 (by decide)
      -- all that follows the number sign is kept
      rw [scan_char plain, variablesFrom, variablesFrom_of_mem (by simp [Part.text])]
      rfl

/-- The references of the line are those of the text, and no other line changes. -/
theorem shownText_text (env : Environment) (free : '\n' ∉ raw) :
    textVariables (place.text raw).toList = lineVariables (place.line.text raw) ∧
      ∀ filled, shownLine env (place.line.text raw) = place.line.text filled →
        shownText env (place.text raw).toList = place.shown filled := by
  obtain ⟨lines, last, cut⟩ := Text.exists_isCut place.before
  obtain ⟨-, rfl⟩ := cut.getLast?_eq_iff.mp place.before_ended
  have line_free := place.feed_notMem_text free
  have back_free : '\r' ∉ '"' :: place.line.back := place.line.notMem_back (by decide) (by decide)
  rw [text, String.toList_ofList, textVariables_append cut, shownText_append cut, place.before_free,
    List.nil_append, shownText_of_unreferenced place.before_free]
  rcases place.ends.cases with nothing | ⟨ret, rest, isReturn, whole, left⟩
  · rw [nothing, List.append_nil, textVariables_of_notMem line_free, shownText_of_notMem line_free]
    refine ⟨rfl, fun filled same => ?_⟩
    rw [same, shown, shownAfter, if_pos nothing, List.append_nil]
  · have line : Text.withoutReturn (place.line.text raw ++ ret) = place.line.text raw := by
      rcases isReturn with rfl | rfl
      · rw [List.append_nil, StringLine.text, ← List.append_assoc]
        exact Text.withoutReturn_append (List.cons_ne_nil _ _) back_free (place.line.front ++ raw)
      · exact Text.withoutReturn_concat _
    have empty : Text.withoutReturn ret = [] := by
      rcases isReturn with rfl | rfl <;> rfl
    have ret_free : '\n' ∉ ret := by
      rcases isReturn with rfl | rfl <;> decide
    have rest_free : textVariables rest = [] := by
      have after_free := place.after_free
      rw [whole, textVariables_feed ret_free] at after_free
      exact (List.append_eq_nil_iff.mp after_free).2
    have there : place.after ≠ [] := by simp [whole]
    have both_free : '\n' ∉ place.line.text raw ++ ret :=
      fun inside => (List.mem_append.mp inside).elim line_free ret_free
    rw [whole, ← List.append_assoc (place.line.text raw), textVariables_feed both_free,
      shownText_feed both_free, line, rest_free, List.append_nil, shownText_of_unreferenced rest_free]
    refine ⟨rfl, fun filled same => ?_⟩
    rw [same, shown, shownAfter, if_neg there, left]

/-! ### What it is read as -/

theorem endsLine_shownAfter : EndsLine place.shownAfter := by
  rw [shownAfter]
  split
  · exact .inl rfl
  · exact .inr rfl

/-- The token is assigned in the table of the backend, and the rest is read from there. -/
theorem read?_shown (isString : IsString raw token) {root : Toml.Members}
    (opened : reach? ([], []) (withoutMark (Text.join '\n' (Text.lines place.before))) =
      some (["backend"], root)) :
    Toml.read? (String.ofList (place.shown raw)) =
      (root.within (Toml.Members.assign (.text token) [] "access_token") ["backend"]).bind fun root =>
        (reach? (["backend"], root) (withoutBreak place.shownAfter)).map fun reached =>
          reached.2.toNode := by
  have ended := Text.getLast?_join_lines place.before_ended
  have there : Text.join '\n' (Text.lines place.before) ≠ [] := by
    intro empty
    rw [empty] at ended
    cases ended
  have key : String.ofList place.line.key = "access_token" := by rw [place.key_eq, String.ofList_toList]
  rw [Toml.read?_eq, String.toList_ofList, shown, Toml.withoutMark_append there,
    Toml.reach?_append (.inr (Toml.getLast?_withoutMark ended)) opened,
    place.line.reach?_text isString place.endsLine_shownAfter, key, Option.map_bind]
  rfl

/-- The document of a text does not depend on the token but for the token itself. -/
theorem exists_document {node : Node} (isString : IsString raw token)
    (read : Toml.read? (String.ofList (place.shown raw)) = some node) :
    ∃ around : TokenNode, ∀ raw token, IsString raw token →
      Toml.read? (String.ofList (place.shown raw)) = some (around.root (.text token)) := by
  obtain ⟨root, origin, inner, opened, found⟩ := place.opened
  rw [place.read?_shown isString opened] at read
  obtain ⟨assigned, assigns, read⟩ := Option.bind_eq_some_iff.mp read
  obtain ⟨⟨selected, last⟩, read, -⟩ := Option.map_eq_some_iff.mp read
  obtain ⟨hole, path, fills⟩ := Toml.exists_hole_of_assign found (by rw [assigns]; nofun)
  obtain rfl : assigned = hole.fill (.text token) := Option.some.inj (assigns.symm.trans (fills _))
  obtain ⟨later, later_path, goes_on⟩ := Toml.reach?_fill read
  obtain ⟨before, after, inside_before, inside_after, nodes⟩ :=
    later.exists_toNode (later_path.trans path)
  refine ⟨⟨before, inside_before, inside_after, after⟩, fun raw token isString => ?_⟩
  rw [place.read?_shown isString opened, fills, Option.bind_some, goes_on, Option.map_some, nodes]
  rfl

/-! ### The settings -/

section

variable [Url.DomainNames]

theorem ofText_spelled (spells : place.Spells raw token) :
    ofText env (place.text raw) = ofExpanded (place.shown raw) := by
  have free : '\n' ∉ raw := fun there => absurd (spells.isString.eq_some.1 _ there) (by decide)
  obtain ⟨names, reads⟩ := place.shownText_text env free
  rw [ofText_eq, names, spells.unreferenced, reads raw (shownLine_of_lineVariables spells.unreferenced)]
  rfl

theorem ofText_reference (hname : IsName name) (one_line : '\n' ∉ name)
    (set : env.text? (String.ofList name) = some value) :
    ofText env (place.text (Part.reference name).text) = ofExpanded (place.shown value.toList) := by
  have free : '\n' ∉ (Part.reference name).text := by simp [Part.text, one_line]
  have dollar : '$' ∉ place.line.front := place.line.notMem_front (by decide) (by decide) (by decide)
  have mark : '#' ∉ place.line.front := place.line.notMem_front (by decide) (by decide) (by decide)
  obtain ⟨names, reads⟩ := place.shownText_text env free
  rw [ofText_eq, names, StringLine.text, lineVariables_of_reference hname dollar mark place.variablesFrom_back,
    needing_cons, set, reads _ (shownLine_of_reference hname dollar mark place.variablesFrom_back set)]
  rfl

theorem ofExpanded_shown {settings : Settings} (isString : IsString raw token)
    (valid : ofExpanded (place.shown raw) = .ok settings) :
    settings.backend.accessToken = some token ∧
      ∀ raw token, IsString raw token → ofExpanded (place.shown raw) = .ok (settings.withToken token) := by
  obtain ⟨decoded, checked⟩ := ofExpanded_eq_ok_iff.mp valid
  rw [Toml.decode] at decoded
  cases read : Toml.read? (String.ofList (place.shown raw)) with
  | none => rw [read] at decoded; cases decoded
  | some node =>
      obtain ⟨around, document⟩ := place.exists_document isString read
      rw [document raw token isString] at decoded
      have every (token : String) := around.decoder_root decoded token
      refine ⟨?_, fun other token isString => ?_⟩
      · have same : settings = settings.withToken token := Except.ok.inj (decoded.symm.trans (every token))
        rw [same]
        rfl
      · rw [ofExpanded_eq_ok_iff, Toml.decode, document other token isString]
        exact ⟨every token, (check_withToken settings token).trans checked⟩

/-- Whatever the value of a variable is, if no quote, backslash or control character is in it, it is the
token of settings whose only reference is in the place of their token; all other settings are as they are
with a token that is spelled out. -/
theorem token_passes_unchanged (place : TokenLine) (env : Environment) {name value : String}
    (hname : IsName name.toList) (one_line : '\n' ∉ name.toList) (set : env.text? name = some value)
    (plain : ∀ c ∈ value.toList, Toml.isPlain c ∧ c ≠ '"' ∧ c ≠ '\\') {raw : List Char} {token : String}
    {settings : Settings} (spells : place.Spells raw token)
    (valid : ofText env (place.text raw) = .ok settings) :
    settings.backend.accessToken = some token ∧
      (∀ raw token, place.Spells raw token →
        ofText env (place.text raw) = .ok (settings.withToken token)) ∧
      ofText env (place.text (Part.reference name.toList).text) = .ok (settings.withToken value) := by
  rw [place.ofText_spelled spells] at valid
  obtain ⟨own, every⟩ := place.ofExpanded_shown spells.isString valid
  refine ⟨own, fun raw token spells => ?_, ?_⟩
  · rw [place.ofText_spelled spells]
    exact every raw token spells.isString
  · rw [place.ofText_reference hname one_line (by rwa [String.ofList_toList])]
    exact every value.toList value (Toml.isString_of_plain plain)

end

/-! ### A token with signs of its own -/

def vaultLine : TokenLine where
  before := "# see $\x7bHANDBOOK\x7d\n[backend]\n".toList
  line :=
    { indent := [' ', ' ']
      key := "access_token".toList
      blanks := [' ']
      comment := "# not $\x7bOLD_TOKEN\x7d".toList
      indent_blank := List.all_eq_true.mp rfl
      key_ne_nil := nofun
      key_bare := List.all_eq_true.mp rfl
      blanks_blank := List.all_eq_true.mp rfl
      comment_plain := List.all_eq_true.mp rfl
      comment_marked := by rintro _ ⟨⟩; rfl }
  after := "\r\nadmin = true".toList
  before_ended := by decide
  before_free := by decide +kernel
  opened := ⟨[("backend", .table .header [])], .header, [], by rfl, by rfl⟩
  key_eq := rfl
  ends := .inr (by decide)
  after_free := by decide +kernel

def vaultToken : String := "a#$\x7bOTHER\x7d \x7b$"

def vaultEnvironment : Environment :=
  ⟨fun name => if name = "HARBOR_TOKEN" then some ⟨vaultToken, true⟩ else none, none, 0⟩

open scoped Url.Alphabets in
theorem vaultToken_passes :
    ∃ settings, ofText vaultEnvironment (vaultLine.text "old".toList) = .ok settings ∧
      settings.backend.accessToken = some "old" ∧
      ofText vaultEnvironment (vaultLine.text (Part.reference "HARBOR_TOKEN".toList).text) =
        .ok (settings.withToken vaultToken) := by
  have read : (ofText vaultEnvironment (vaultLine.text "old".toList)).toOption.isSome := by decide +kernel
  cases valid : ofText vaultEnvironment (vaultLine.text "old".toList) with
  | error fault => rw [valid] at read; cases read
  | ok settings =>
      have spells : vaultLine.Spells "old".toList "old" := ⟨by decide +kernel, by decide +kernel⟩
      have named : IsName "HARBOR_TOKEN".toList := ⟨by decide, by decide⟩
      have set : vaultEnvironment.text? "HARBOR_TOKEN" = some vaultToken := by decide +kernel
      have plain : vaultToken.toList.all fun c => decide (Toml.isPlain c ∧ c ≠ '"' ∧ c ≠ '\\') := by
        decide +kernel
      obtain ⟨own, -, replaced⟩ :=
        vaultLine.token_passes_unchanged vaultEnvironment named (by decide) set
          (fun c there => of_decide_eq_true (List.all_eq_true.mp plain c there)) spells valid
      exact ⟨settings, rfl, own, replaced⟩

end TokenLine

end UsageBoard.Settings
