import Mathlib.Data.List.Infix
import UsageBoard.Markup.Html

/-!
# What a viewer reads

A `Viewer` reads a page character by character and tells text from tags, as it would for any page.
Of a page that was written from tokens it reads the tags of the tokens and their escaped texts.

## Main statements

* `Attribute.isQuotable_of_value?`: no value has a quote or an angle bracket of its own.
* `Viewer.read_write`: a viewer reads what the tokens of a page show.
-/

namespace UsageBoard.Markup.Html

/-! ## Viewers -/

/-- A tag as it is read: its name, and its attributes with their values as they are written. -/
structure Tag where
  closing : Bool
  name : List Char
  attributes : List (List Char × List Char)
deriving DecidableEq, Repr

inductive Sight where
  | char (c : Char)
  | tag (tag : Tag)
  /-- A comment or a declaration. -/
  | declaration
deriving DecidableEq, Repr

inductive Mode where
  | text
  | angle
  | slash
  | declaration
  | name (tag : Tag)
  | between (tag : Tag)
  | attribute (tag : Tag) (name : List Char)
  /-- In the blanks after the name of an attribute. -/
  | named (tag : Tag) (name : List Char)
  | equals (tag : Tag) (name : List Char)
  | value (tag : Tag) (name : List Char) (quote : Option Char) (value : List Char)
deriving DecidableEq, Repr

def isSpace (c : Char) : Bool := c == ' ' || c == '\n' || c == '\t' || c == '\r' || c == '\x0c'

def Tag.add (tag : Tag) (name value : List Char) : Tag :=
  { tag with attributes := tag.attributes ++ [(name, value)] }

structure Viewer where
  seen : List Sight
  mode : Mode
deriving DecidableEq, Repr

namespace Viewer

def find (v : Viewer) (sight : Sight) : Viewer := ⟨v.seen ++ [sight], .text⟩

def afterName (v : Viewer) (tag : Tag) (name : List Char) (c : Char) : Viewer :=
  if c = '=' then ⟨v.seen, .equals tag name⟩
  else if c = '>' then v.find (.tag (tag.add name []))
  else if c = '/' then ⟨v.seen, .between (tag.add name [])⟩
  else if isSpace c then ⟨v.seen, .named tag name⟩
  else ⟨v.seen, .attribute (tag.add name []) [c]⟩

def step (v : Viewer) (c : Char) : Viewer :=
  match v.mode with
  | .text => if c = '<' then ⟨v.seen, .angle⟩ else v.find (.char c)
  | .angle =>
      if c.isAlpha then ⟨v.seen, .name ⟨false, [c], []⟩⟩
      else if c = '/' then ⟨v.seen, .slash⟩
      else if c = '!' ∨ c = '?' then ⟨v.seen, .declaration⟩
      else if c = '<' then ⟨v.seen ++ [.char '<'], .angle⟩
      else (v.find (.char '<')).find (.char c)
  | .slash =>
      if c.isAlpha then ⟨v.seen, .name ⟨true, [c], []⟩⟩
      else if c = '>' then ⟨v.seen, .text⟩
      else ⟨v.seen, .declaration⟩
  | .declaration => if c = '>' then v.find .declaration else v
  | .name tag =>
      if c = '>' then v.find (.tag tag)
      else if isSpace c ∨ c = '/' then ⟨v.seen, .between tag⟩
      else ⟨v.seen, .name { tag with name := tag.name ++ [c] }⟩
  | .between tag =>
      if c = '>' then v.find (.tag tag)
      else if isSpace c ∨ c = '/' then v
      else ⟨v.seen, .attribute tag [c]⟩
  | .attribute tag name =>
      if c = '=' ∨ c = '>' ∨ c = '/' ∨ isSpace c then v.afterName tag name c
      else ⟨v.seen, .attribute tag (name ++ [c])⟩
  | .named tag name => v.afterName tag name c
  | .equals tag name =>
      if isSpace c then v
      else if c = '"' ∨ c = '\'' then ⟨v.seen, .value tag name (some c) []⟩
      else if c = '>' then v.find (.tag (tag.add name []))
      else ⟨v.seen, .value tag name none [c]⟩
  | .value tag name (some quote) value =>
      if c = quote then ⟨v.seen, .between (tag.add name value)⟩
      else ⟨v.seen, .value tag name (some quote) (value ++ [c])⟩
  | .value tag name none value =>
      if c = '>' then v.find (.tag (tag.add name value))
      else if isSpace c then ⟨v.seen, .between (tag.add name value)⟩
      else ⟨v.seen, .value tag name none (value ++ [c])⟩

def run (v : Viewer) (cs : List Char) : Viewer := cs.foldl step v

def read (cs : List Char) : Viewer := run ⟨[], .text⟩ cs

theorem run_append (v : Viewer) (cs ds : List Char) : v.run (cs ++ ds) = (v.run cs).run ds :=
  List.foldl_append

theorem run_cons (v : Viewer) (c : Char) (cs : List Char) : v.run (c :: cs) = (v.step c).run cs := rfl

end Viewer

/-! ## Characters -/

/-- Text that can stand between quotes, and between tags. -/
def IsQuotable (cs : List Char) : Prop := ∀ c ∈ cs, c ≠ '"' ∧ c ≠ '<' ∧ c ≠ '>'

instance (cs : List Char) : Decidable (IsQuotable cs) := List.decidableBAll _ _

theorem IsQuotable.append {cs ds : List Char} (hc : IsQuotable cs) (hd : IsQuotable ds) :
    IsQuotable (cs ++ ds) := by
  intro c h
  rcases List.mem_append.mp h with h | h
  · exact hc c h
  · exact hd c h

theorem IsQuotable.flatMap {escape : Char → List Char} (h : ∀ c, IsQuotable (escape c))
    (cs : List Char) : IsQuotable (cs.flatMap escape) := by
  intro c hc
  obtain ⟨d, -, hd⟩ := List.mem_flatMap.mp hc
  exact h d c hd

theorem isQuotable_escapeValue (c : Char) : IsQuotable (escapeValue c) := by
  unfold escapeValue escapeText
  split
  · decide
  split
  · decide
  split
  · decide
  split
  · decide
  split
  · decide
  · rename_i hquote _ _ hless hgreater
    simp [IsQuotable, hquote, hless, hgreater]

theorem isQuotable_percentByte (byte : UInt8) : IsQuotable (percentByte byte) := by
  have hdigit : ∀ n < 16, IsQuotable [(Nat.toDigits 16 n).headD '0' |>.toUpper] := by decide
  have hhigh := hdigit (byte.toNat / 16) (by have := byte.toNat_lt; omega)
  have hlow := hdigit (byte.toNat % 16) (by omega)
  have hpercent : IsQuotable ['%'] := by decide
  exact hpercent.append (hhigh.append hlow)

theorem isQuotable_escapeDestination (c : Char) : IsQuotable (escapeDestination c) := by
  unfold escapeDestination
  split
  · decide
  split
  · decide
  split
  · rename_i h
    intro d hd
    obtain rfl := List.mem_singleton.mp hd
    refine ⟨?_, ?_, ?_⟩ <;> rintro rfl <;> revert h <;> decide
  · intro d hd
    obtain ⟨byte, -, hbyte⟩ := List.mem_flatMap.mp hd
    exact isQuotable_percentByte byte d hbyte

theorem isQuotable_of_isDigit {cs : List Char} (h : ∀ c ∈ cs, c.isDigit) : IsQuotable cs := by
  intro c hc
  have hdigit := h c hc
  refine ⟨?_, ?_, ?_⟩ <;> rintro rfl <;> revert hdigit <;> decide

/-- No value has a quote or an angle bracket of its own. -/
theorem Attribute.isQuotable_of_value? {a : Attribute} {value : List Char}
    (h : a.value? = some value) : IsQuotable value := by
  cases a with
  | href mail destination =>
      obtain rfl := Option.some.inj h
      refine IsQuotable.append ?_ (.flatMap isQuotable_escapeDestination destination)
      cases mail <;> decide
  | src destination =>
      obtain rfl := Option.some.inj h
      exact .flatMap isQuotable_escapeDestination destination
  | alt chars =>
      obtain rfl := Option.some.inj h
      exact .flatMap isQuotable_escapeValue chars
  | title chars =>
      obtain rfl := Option.some.inj h
      exact .flatMap isQuotable_escapeValue chars
  | language name =>
      obtain rfl := Option.some.inj h
      exact IsQuotable.append (by decide) (.flatMap isQuotable_escapeValue name)
  | alignment which =>
      cases which <;> simp only [value?, alignmentName, Option.map_none, Option.map_some,
        reduceCtorEq, Option.some.injEq] at h
      all_goals
        subst h
        decide
  | start number =>
      obtain rfl := Option.some.inj h
      exact isQuotable_of_isDigit fun c => Nat.isDigit_of_mem_toDigits (by decide) (by decide)

theorem not_angle_of_escapeText {chars : List Char} {c : Char} (h : c ∈ chars.flatMap escapeText) :
    c ≠ '<' ∧ c ≠ '>' := by
  obtain ⟨d, -, hd⟩ := List.mem_flatMap.mp h
  unfold escapeText at hd
  split at hd
  · have hentity : ∀ d ∈ "&amp;".toList, d ≠ '<' ∧ d ≠ '>' := by simp
    exact hentity c hd
  split at hd
  · have hentity : ∀ d ∈ "&lt;".toList, d ≠ '<' ∧ d ≠ '>' := by simp
    exact hentity c hd
  split at hd
  · have hentity : ∀ d ∈ "&gt;".toList, d ≠ '<' ∧ d ≠ '>' := by simp
    exact hentity c hd
  · rename_i hless hgreater
    obtain rfl := List.mem_singleton.mp hd
    exact ⟨hless, hgreater⟩

def IsName (cs : List Char) : Prop :=
  ∃ c rest, cs = c :: rest ∧ c.isAlpha ∧ rest.all Char.isAlphanum

theorem isName_elementName (element : Element) : IsName element.name.toList := by
  cases element with
  | heading level =>
      refine ⟨'h', Nat.toDigits 10 level, ?_, by decide, ?_⟩
      · have hdigits : (toString level).toList = Nat.toDigits 10 level := Nat.toList_repr
        rw [Element.name, String.toList_append, hdigits]
        rfl
      · refine List.all_eq_true.mpr fun c hc => ?_
        have hdigit : c.isDigit := Nat.isDigit_of_mem_toDigits (by decide) (by decide) hc
        simp [Char.isAlphanum, hdigit]
  | _ => exact ⟨_, _, rfl, by decide, by decide⟩

theorem isName_attributeName (a : Attribute) : IsName a.name.toList := by
  cases a <;> simp only [Attribute.name] <;> exact ⟨_, _, rfl, by decide, by decide⟩

/-- A letter or a digit has no meaning of its own in a tag. -/
theorem not_special_of_isAlphanum {c : Char} (h : c.isAlphanum) :
    c ≠ '=' ∧ c ≠ '>' ∧ c ≠ '/' ∧ c ≠ '<' ∧ isSpace c = false := by
  have hne (d : Char) (hd : d.isAlphanum = false) : c ≠ d := by
    rintro rfl
    exact absurd h (by simp [hd])
  refine ⟨hne _ (by decide), hne _ (by decide), hne _ (by decide), hne _ (by decide), ?_⟩
  simp [isSpace, hne ' ' (by decide), hne '\n' (by decide), hne '\t' (by decide),
    hne '\r' (by decide), hne '\x0c' (by decide)]

/-! ## Reading what was written -/

def Attribute.written? (a : Attribute) : Option (List Char × List Char) :=
  a.value?.map fun value => (a.name.toList, value)

/-- What a token shows, at the start of a line or not. -/
def Token.sights (lineStart : Bool) : Token → List Sight
  | .text chars => (chars.flatMap escapeText).map .char
  | .fresh => if lineStart then [] else [.char '\n']
  | .newline => [.char '\n']
  | .opening element attributes =>
      [.tag ⟨false, element.name.toList, attributes.filterMap Attribute.written?⟩]
  | .closing element => [.tag ⟨true, element.name.toList, []⟩]
  | .single element attributes =>
      [.tag ⟨false, element.name.toList, attributes.filterMap Attribute.written?⟩]

def sightsFrom : (lineStart : Bool) → List Token → List Sight
  | _, [] => []
  | lineStart, token :: tokens => token.sights lineStart ++ sightsFrom token.endsLine tokens

/-! ## Parts of a page -/

namespace Token

def IsTag : Token → Prop
  | opening _ _ | closing _ | single _ _ => True
  | _ => False

def attributes : Token → List Attribute
  | opening _ attributes => attributes
  | single _ attributes => attributes
  | _ => []

end Token

theorem infix_writeFrom {token : Token} {tokens : List Token} (h : token ∈ tokens)
    (lineStart : Bool) : ∃ atStart, token.chars atStart <:+: writeFrom lineStart tokens := by
  induction tokens generalizing lineStart with
  | nil => exact absurd h List.not_mem_nil
  | cons other rest ih =>
      rcases List.mem_cons.mp h with rfl | h
      · exact ⟨lineStart, List.infix_append_left⟩
      · obtain ⟨atStart, hpart⟩ := ih h other.endsLine
        exact ⟨atStart, List.infix_append_of_infix_right hpart⟩

theorem infix_chars {token : Token} {a : Attribute} (h : a ∈ token.attributes) (lineStart : Bool) :
    a.chars <:+: token.chars lineStart := by
  have hall : a.chars <:+: token.attributes.flatMap Attribute.chars :=
    List.infix_of_mem_flatten (List.mem_map_of_mem h)
  cases token with
  | opening element attributes => exact hall.trans (List.infix_append _ _ _)
  | single element attributes => exact hall.trans (List.infix_append _ _ _)
  | _ => exact absurd h List.not_mem_nil

theorem mem_sightsFrom {lineStart : Bool} {tokens : List Token} {sight : Sight}
    (h : sight ∈ sightsFrom lineStart tokens) :
    ∃ token ∈ tokens, ∃ atStart, sight ∈ token.sights atStart := by
  induction tokens generalizing lineStart with
  | nil => simp [sightsFrom] at h
  | cons token rest ih =>
      rcases List.mem_append.mp h with h | h
      · exact ⟨token, List.mem_cons_self, lineStart, h⟩
      · obtain ⟨other, hother, atStart, hsight⟩ := ih h
        exact ⟨other, List.mem_cons_of_mem _ hother, atStart, hsight⟩

/-- A text that is seen has no angle bracket, and a tag has the attributes of its token. -/
theorem mem_sights {token : Token} {lineStart : Bool} {sight : Sight}
    (h : sight ∈ token.sights lineStart) :
    (∃ c, sight = .char c ∧ c ≠ '<' ∧ c ≠ '>') ∨
      ∃ tag, sight = .tag tag ∧ tag.attributes = token.attributes.filterMap Attribute.written? := by
  cases token with
  | text chars =>
      obtain ⟨c, hc, rfl⟩ := List.mem_map.mp h
      exact .inl ⟨c, rfl, not_angle_of_escapeText hc⟩
  | fresh =>
      cases lineStart with
      | false => exact .inl ⟨'\n', List.mem_singleton.mp h, by decide⟩
      | true => exact absurd h List.not_mem_nil
  | newline => exact .inl ⟨'\n', List.mem_singleton.mp h, by decide⟩
  | opening element attributes => exact .inr ⟨_, List.mem_singleton.mp h, rfl⟩
  | closing element => exact .inr ⟨_, List.mem_singleton.mp h, rfl⟩
  | single element attributes => exact .inr ⟨_, List.mem_singleton.mp h, rfl⟩

/-- The attributes of the tags that are seen are those of tokens. -/
theorem mem_attributes_of_mem_sightsFrom {lineStart : Bool} {tokens : List Token} {tag : Tag}
    (h : .tag tag ∈ sightsFrom lineStart tokens) {pair : List Char × List Char}
    (hpair : pair ∈ tag.attributes) :
    ∃ token ∈ tokens, ∃ a ∈ token.attributes, a.written? = some pair := by
  obtain ⟨token, htoken, atStart, hsight⟩ := mem_sightsFrom h
  rcases mem_sights hsight with ⟨c, heq, -⟩ | ⟨same, heq, hattributes⟩
  · exact absurd heq (by simp)
  · obtain rfl := Sight.tag.inj heq
    rw [hattributes] at hpair
    obtain ⟨a, ha, hwritten⟩ := List.mem_filterMap.mp hpair
    exact ⟨token, htoken, a, ha, hwritten⟩

namespace Viewer

variable {v : Viewer} {seen : List Sight} {tag : Tag}

theorem step_text {c : Char} (h : c ≠ '<') :
    step ⟨seen, .text⟩ c = ⟨seen ++ [.char c], .text⟩ := if_neg h

theorem step_name {c : Char} (h : c.isAlphanum) :
    step ⟨seen, .name tag⟩ c = ⟨seen, .name { tag with name := tag.name ++ [c] }⟩ := by
  obtain ⟨-, hend, hslash, -, hspace⟩ := not_special_of_isAlphanum h
  exact (if_neg hend).trans (if_neg (by simp [hslash, hspace]))

theorem step_between {c : Char} (h : c.isAlphanum) :
    step ⟨seen, .between tag⟩ c = ⟨seen, .attribute tag [c]⟩ := by
  obtain ⟨-, hend, hslash, -, hspace⟩ := not_special_of_isAlphanum h
  exact (if_neg hend).trans (if_neg (by simp [hslash, hspace]))

theorem step_attribute {name : List Char} {c : Char} (h : c.isAlphanum) :
    step ⟨seen, .attribute tag name⟩ c = ⟨seen, .attribute tag (name ++ [c])⟩ := by
  obtain ⟨hequals, hend, hslash, -, hspace⟩ := not_special_of_isAlphanum h
  exact if_neg (by simp [hequals, hend, hslash, hspace])

theorem step_value {name value : List Char} {c : Char} (h : c ≠ '"') :
    step ⟨seen, .value tag name (some '"') value⟩ c =
      ⟨seen, .value tag name (some '"') (value ++ [c])⟩ := if_neg h

theorem run_text (seen : List Sight) {cs : List Char} (h : ∀ c ∈ cs, c ≠ '<') :
    run ⟨seen, .text⟩ cs = ⟨seen ++ cs.map .char, .text⟩ := by
  induction cs generalizing seen with
  | nil => simp [run]
  | cons c cs ih =>
      obtain ⟨hc, hcs⟩ := List.forall_mem_cons.mp h
      rw [run_cons, step_text hc, ih _ hcs]
      simp

theorem run_name (tag : Tag) {cs : List Char} (h : ∀ c ∈ cs, c.isAlphanum) :
    run ⟨seen, .name tag⟩ cs = ⟨seen, .name { tag with name := tag.name ++ cs }⟩ := by
  induction cs generalizing tag with
  | nil => simp [run]
  | cons c cs ih =>
      obtain ⟨hc, hcs⟩ := List.forall_mem_cons.mp h
      rw [run_cons, step_name hc, ih _ hcs]
      simp

theorem run_attribute (name : List Char) {cs : List Char} (h : ∀ c ∈ cs, c.isAlphanum) :
    run ⟨seen, .attribute tag name⟩ cs = ⟨seen, .attribute tag (name ++ cs)⟩ := by
  induction cs generalizing name with
  | nil => simp [run]
  | cons c cs ih =>
      obtain ⟨hc, hcs⟩ := List.forall_mem_cons.mp h
      rw [run_cons, step_attribute hc, ih _ hcs]
      simp

/-- A value goes on up to the quote after it. -/
theorem run_value (name before : List Char) {value : List Char} (h : IsQuotable value) :
    run ⟨seen, .value tag name (some '"') before⟩ value =
      ⟨seen, .value tag name (some '"') (before ++ value)⟩ := by
  induction value generalizing before with
  | nil => simp [run]
  | cons c cs ih =>
      obtain ⟨hc, hcs⟩ := List.forall_mem_cons.mp h
      rw [run_cons, step_value hc.1, ih _ hcs]
      simp

def Admits (mode : Mode) (tag : Tag) : Prop := mode = .name tag ∨ mode = .between tag

/-- An attribute is read as it was written, and the quote after its value ends it. -/
theorem run_quotedAttribute {mode : Mode} (hmode : Admits mode tag) {name : String}
    (hname : IsName name.toList) {value : List Char} (hvalue : IsQuotable value) :
    run ⟨seen, mode⟩ (quotedAttribute name value) =
      ⟨seen, .between (tag.add name.toList value)⟩ := by
  obtain ⟨c, rest, heq, halpha, hrest⟩ := hname
  have hc : c.isAlphanum := by simp [Char.isAlphanum, halpha]
  have hblank : step ⟨seen, mode⟩ ' ' = ⟨seen, .between tag⟩ := by
    rcases hmode with rfl | rfl <;> rfl
  have hequals (name : List Char) : run ⟨seen, .attribute tag name⟩ ['=', '"'] =
      ⟨seen, .value tag name (some '"') []⟩ := rfl
  rw [quotedAttribute, heq]
  simp only [List.cons_append, run_cons, run_append, hblank, step_between hc,
    run_attribute [c] (List.all_eq_true.mp hrest), hequals, run_value _ [] hvalue]
  rfl

theorem run_attributes {mode : Mode} (hmode : Admits mode tag) (attributes : List Attribute) :
    ∃ later, run ⟨seen, mode⟩ (attributes.flatMap Attribute.chars) = ⟨seen, later⟩ ∧
      Admits later { tag with
        attributes := tag.attributes ++ attributes.filterMap Attribute.written? } := by
  induction attributes generalizing mode tag with
  | nil => exact ⟨mode, rfl, by simpa using hmode⟩
  | cons a rest ih =>
      rw [List.flatMap_cons, run_append, Attribute.chars]
      cases hvalue : a.value? with
      | none =>
          obtain ⟨later, hrun, hlater⟩ := ih hmode
          refine ⟨later, hrun, ?_⟩
          simpa [Attribute.written?, hvalue] using hlater
      | some value =>
          have hbetween : Admits (.between (tag.add a.name.toList value))
              (tag.add a.name.toList value) := .inr rfl
          obtain ⟨later, hrun, hlater⟩ := ih hbetween
          refine ⟨later, ?_, ?_⟩
          · rw [← hrun]
            exact congrArg (run · _) (run_quotedAttribute hmode (isName_attributeName a)
              (Attribute.isQuotable_of_value? hvalue))
          · simpa [Attribute.written?, hvalue, Tag.add] using hlater

theorem run_opening (seen : List Sight) (element : Element) (attributes : List Attribute) :
    ∃ mode, run ⟨seen, .text⟩
        ('<' :: element.name.toList ++ attributes.flatMap Attribute.chars) = ⟨seen, mode⟩ ∧
      Admits mode ⟨false, element.name.toList, attributes.filterMap Attribute.written?⟩ := by
  obtain ⟨c, rest, heq, halpha, hrest⟩ := isName_elementName element
  have hangle : step ⟨seen, .text⟩ '<' = ⟨seen, .angle⟩ := rfl
  have hstart : step ⟨seen, .angle⟩ c = ⟨seen, .name ⟨false, [c], []⟩⟩ := if_pos halpha
  have hname : Admits (.name ⟨false, [c] ++ rest, []⟩) ⟨false, c :: rest, []⟩ := .inl rfl
  obtain ⟨mode, hrun, hmode⟩ := run_attributes hname attributes
  refine ⟨mode, ?_, ?_⟩
  · rw [heq, List.cons_append, run_cons, hangle, List.cons_append, run_cons, hstart, run_append,
      run_name _ (List.all_eq_true.mp hrest)]
    exact hrun
  · rw [heq]
    exact hmode

theorem run_closing (element : Element) :
    run ⟨seen, .text⟩ ('<' :: '/' :: element.name.toList ++ ['>']) =
      ⟨seen ++ [.tag ⟨true, element.name.toList, []⟩], .text⟩ := by
  obtain ⟨c, rest, heq, halpha, hrest⟩ := isName_elementName element
  have hslash : run ⟨seen, .text⟩ ['<', '/'] = ⟨seen, .slash⟩ := rfl
  have hstart : step ⟨seen, .slash⟩ c = ⟨seen, .name ⟨true, [c], []⟩⟩ := if_pos halpha
  have hsplit : '<' :: '/' :: (c :: rest) ++ ['>'] = ['<', '/'] ++ (c :: (rest ++ ['>'])) := rfl
  rw [heq, hsplit, run_append, hslash, run_cons, hstart, run_append, run_name _ (List.all_eq_true.mp hrest)]
  rfl

theorem run_chars (lineStart : Bool) (token : Token) :
    run ⟨seen, .text⟩ (token.chars lineStart) = ⟨seen ++ token.sights lineStart, .text⟩ := by
  cases token with
  | text chars => exact run_text seen fun c hc => (not_angle_of_escapeText hc).1
  | fresh => cases lineStart <;> simp [Token.chars, Token.sights, run, step, find]
  | newline => simp [Token.chars, Token.sights, run, step, find]
  | opening element attributes =>
      obtain ⟨mode, hrun, hmode⟩ := run_opening seen element attributes
      rw [Token.chars, run_append, hrun]
      rcases hmode with rfl | rfl <;> rfl
  | closing element => exact run_closing element
  | single element attributes =>
      obtain ⟨mode, hrun, hmode⟩ := run_opening seen element attributes
      rw [Token.chars, run_append, hrun]
      rcases hmode with rfl | rfl <;> rfl

theorem run_writeFrom (seen : List Sight) (lineStart : Bool) (tokens : List Token) :
    run ⟨seen, .text⟩ (writeFrom lineStart tokens) =
      ⟨seen ++ sightsFrom lineStart tokens, .text⟩ := by
  induction tokens generalizing seen lineStart with
  | nil => simp [writeFrom, sightsFrom, run]
  | cons token rest ih => rw [writeFrom, run_append, run_chars, ih, sightsFrom, List.append_assoc]

/-- A viewer reads what the tokens of a page show, and is outside of all tags at the end. -/
theorem read_write (tokens : List Token) :
    read (write tokens) = ⟨sightsFrom true tokens, .text⟩ :=
  run_writeFrom [] true tokens

end Viewer

end UsageBoard.Markup.Html
