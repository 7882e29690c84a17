import UsageBoard.Proofs.Markup.RawTags
import UsageBoard.Proofs.Markup.Targets

/-!
# What markup can do to a page

Whatever the markup, the page has no tags but those of its own tokens, its attributes end where they
were written to end, and its links lead only where they may.

## Main statements

* `Html.angle_writeFrom`: every opening angle bracket of a page begins a tag of the page.
* `Outline.leadTo_tokens`: every link and image leads to a destination of the markup that is allowed.
* `toHtml_isSafe`: so the HTML of markup is safe.
-/

namespace UsageBoard.Markup

namespace Html

/-! ## Angle brackets -/

theorem ne_angle_of_isName {name : List Char} (h : IsName name) : ∀ c ∈ name, c ≠ '<' := by
  obtain ⟨c, rest, rfl, halpha, hrest⟩ := h
  intro d hd
  have halnum : d.isAlphanum := by
    rcases List.mem_cons.mp hd with rfl | hd
    · simp [Char.isAlphanum, halpha]
    · exact List.all_eq_true.mp hrest d hd
  exact (not_special_of_isAlphanum halnum).2.2.2.1

theorem ne_angle_of_mem_attributes {attributes : List Attribute} :
    ∀ c ∈ attributes.flatMap Attribute.chars, c ≠ '<' := by
  intro c hc
  obtain ⟨a, -, ha⟩ := List.mem_flatMap.mp hc
  rw [Attribute.chars] at ha
  cases hvalue : a.value? with
  | none => simp [hvalue] at ha
  | some value =>
      have hname := ne_angle_of_isName (isName_attributeName a)
      have hquotable := Attribute.isQuotable_of_value? hvalue
      have hwritten : ∀ d ∈ quotedAttribute a.name value, d ≠ '<' := by
        simp only [quotedAttribute, List.forall_mem_append, List.forall_mem_cons]
        exact ⟨⟨⟨⟨by decide, hname⟩, by simp⟩, fun d hd => (hquotable d hd).2.1⟩, by simp⟩
      rw [hvalue] at ha
      exact hwritten c ha

/-- A tag has its angle bracket in front, and other tokens have none. -/
theorem Token.chars_cases (token : Token) (lineStart : Bool) :
    (token.IsTag ∧ ∃ rest, token.chars lineStart = '<' :: rest ∧ ∀ c ∈ rest, c ≠ '<') ∨
      ∀ c ∈ token.chars lineStart, c ≠ '<' := by
  cases token with
  | text chars => exact .inr fun c hc => (not_angle_of_escapeText hc).1
  | fresh => cases lineStart <;> exact .inr (by simp [chars])
  | newline => exact .inr (List.forall_mem_singleton.mpr (by decide))
  | opening element attributes =>
      refine .inl ⟨trivial, element.name.toList ++ attributes.flatMap Attribute.chars ++ ['>'],
        rfl, ?_⟩
      have hname := ne_angle_of_isName (isName_elementName element)
      simp only [List.forall_mem_append]
      exact ⟨⟨hname, ne_angle_of_mem_attributes⟩, by simp⟩
  | closing element =>
      refine .inl ⟨trivial, '/' :: element.name.toList ++ ['>'], rfl, ?_⟩
      have hname := ne_angle_of_isName (isName_elementName element)
      simp only [List.forall_mem_append, List.forall_mem_cons]
      exact ⟨⟨by decide, hname⟩, by simp⟩
  | single element attributes =>
      refine .inl ⟨trivial, element.name.toList ++ attributes.flatMap Attribute.chars ++
        " />".toList, rfl, ?_⟩
      have hname := ne_angle_of_isName (isName_elementName element)
      simp only [List.forall_mem_append]
      exact ⟨⟨hname, ne_angle_of_mem_attributes⟩, by simp⟩

theorem Token.eq_nil_of_chars_eq {token : Token} {lineStart : Bool} {before after : List Char}
    (h : token.chars lineStart = before ++ '<' :: after) : token.IsTag ∧ before = [] := by
  rcases token.chars_cases lineStart with ⟨htag, rest, heq, hrest⟩ | hnone
  · refine ⟨htag, ?_⟩
    cases before with
    | nil => rfl
    | cons c before =>
        rw [heq, List.cons_append] at h
        obtain ⟨-, rfl⟩ := List.cons.inj h
        exact absurd rfl (hrest '<' (by simp))
  · exact absurd rfl (hnone '<' (by simp [h]))

/-- Every opening angle bracket of a page begins a tag of the page. -/
theorem angle_writeFrom {lineStart : Bool} {tokens : List Token} {before after : List Char}
    (h : writeFrom lineStart tokens = before ++ '<' :: after) :
    ∃ earlier token later atStart, tokens = earlier ++ token :: later ∧ token.IsTag ∧
      before = writeFrom lineStart earlier ∧
      '<' :: after = token.chars atStart ++ writeFrom token.endsLine later := by
  induction tokens generalizing lineStart before with
  | nil => simp [writeFrom] at h
  | cons token rest ih =>
      have hlater {front : List Char} (hbefore : before = token.chars lineStart ++ front)
          (hrest : writeFrom token.endsLine rest = front ++ '<' :: after) :
          ∃ earlier other later atStart, token :: rest = earlier ++ other :: later ∧
            other.IsTag ∧ before = writeFrom lineStart earlier ∧
            '<' :: after = other.chars atStart ++ writeFrom other.endsLine later := by
        obtain ⟨earlier, other, later, atStart, rfl, htag, rfl, hafter⟩ := ih hrest
        exact ⟨token :: earlier, other, later, atStart, rfl, htag, hbefore, hafter⟩
      rw [writeFrom] at h
      rcases List.append_eq_append_iff.mp h with ⟨front, hbefore, hrest⟩ | ⟨back, htoken, hback⟩
      · exact hlater hbefore hrest
      · cases back with
        | nil => exact @hlater [] (by simpa using htoken.symm) (by simpa using hback.symm)
        | cons c back =>
            obtain ⟨rfl, hafter⟩ := List.cons.inj hback
            obtain ⟨htag, rfl⟩ := Token.eq_nil_of_chars_eq htoken
            refine ⟨[], token, rest, lineStart, rfl, htag, rfl, ?_⟩
            rw [htoken, hafter]
            rfl

end Html

/-! ## Destinations -/

open Html (Token Attribute Element)

/-- An attribute that leads somewhere leads to one of the targets, or where it does no harm. -/
def Html.Attribute.LeadsTo (targets : List (Bool × List Char)) : Attribute → Prop
  | .href mail shown => ∃ destination, (mail, destination) ∈ targets ∧
      shown = Destination.safe destination
  | .src shown => ∃ destination, (false, destination) ∈ targets ∧
      shown = Destination.safe destination
  | _ => True

def LeadTo (targets : List (Bool × List Char)) (tokens : List Token) : Prop :=
  ∀ token ∈ tokens, ∀ a ∈ token.attributes, a.LeadsTo targets

section

variable {targets : List (Bool × List Char)}

@[simp]
theorem leadTo_nil : LeadTo targets [] := List.forall_mem_nil _

@[simp]
theorem leadTo_cons {token : Token} {tokens : List Token} : LeadTo targets (token :: tokens) ↔
    (∀ a ∈ token.attributes, a.LeadsTo targets) ∧ LeadTo targets tokens :=
  List.forall_mem_cons

@[simp]
theorem leadTo_append {earlier later : List Token} :
    LeadTo targets (earlier ++ later) ↔ LeadTo targets earlier ∧ LeadTo targets later :=
  List.forall_mem_append

theorem leadTo_flatMap {α : Type} {tokens : α → List Token} {xs : List α} :
    LeadTo targets (xs.flatMap tokens) ↔ ∀ x ∈ xs, LeadTo targets (tokens x) :=
  List.forall_mem_flatMap

theorem leadsTo_titleAttribute (title : List Char) :
    ∀ a ∈ Inline.titleAttribute title, a.LeadsTo targets := by
  unfold Inline.titleAttribute
  split <;> simp [Html.Attribute.LeadsTo]

mutual

theorem Inline.leadTo_tokens : ∀ part : Inline, (∀ target ∈ part.targets, target ∈ targets) →
    LeadTo targets part.tokens
  | .text chars, _ => by simp [Inline.tokens, Token.attributes]
  | .code chars, _ => by simp [Inline.tokens, Token.attributes]
  | .tag chars, _ => by simp [Inline.tokens, Token.attributes]
  | .softBreak, _ => by simp [Inline.tokens, Token.attributes]
  | .hardBreak, _ => by simp [Inline.tokens, Token.attributes]
  | .emphasis parts, h => by
      simpa [Inline.tokens, Token.attributes] using leadTo_allTokens parts h
  | .strong parts, h => by
      simpa [Inline.tokens, Token.attributes] using leadTo_allTokens parts h
  | .struck parts, h => by
      simpa [Inline.tokens, Token.attributes] using leadTo_allTokens parts h
  | .link mail destination title parts, h => by
      obtain ⟨hlink, hparts⟩ := List.forall_mem_cons.mp h
      have htokens := leadTo_allTokens parts hparts
      simp only [Inline.tokens, Token.attributes, List.cons_append, leadTo_cons, leadTo_append,
        List.forall_mem_cons]
      exact ⟨⟨⟨destination, hlink, rfl⟩, leadsTo_titleAttribute title⟩, htokens, by simp⟩
  | .image destination title parts, h => by
      obtain ⟨himage, -⟩ := List.forall_mem_cons.mp h
      simp only [Inline.tokens, Token.attributes, leadTo_cons, List.forall_mem_cons]
      exact ⟨⟨⟨destination, himage, rfl⟩, trivial, leadsTo_titleAttribute title⟩, leadTo_nil⟩

theorem Inline.leadTo_allTokens : ∀ parts : List Inline,
    (∀ target ∈ Inline.allTargets parts, target ∈ targets) → LeadTo targets (Inline.allTokens parts)
  | [], _ => leadTo_nil
  | part :: parts, h => by
      obtain ⟨hpart, hparts⟩ := List.forall_mem_append.mp h
      exact leadTo_append.mpr ⟨leadTo_tokens part hpart, leadTo_allTokens parts hparts⟩

end

def Covers (targets : List (Bool × List Char)) (definitions : Link.Definitions)
    (contents : List (List Char)) : Prop :=
  ∀ content ∈ contents, ∀ target ∈ Inline.allTargets (Content.parse definitions content),
    target ∈ targets

variable {definitions : Link.Definitions}

theorem Block.leadTo_rowTokens (element : Element) (alignments : List Marker.CellAlignment)
    {cells : List (List Char)} (h : Covers targets definitions cells) :
    LeadTo targets (Block.rowTokens definitions element alignments cells) := by
  refine leadTo_flatMap.mpr ?_
  rintro ⟨content, alignment⟩ hcell
  have hcontent := Inline.leadTo_allTokens _ (h content (List.of_mem_zip hcell).1)
  simpa [Block.contentTokens, Token.attributes, Html.Attribute.LeadsTo] using hcontent

variable (targets) in
theorem leadsTo_languageAttribute (info : Option (List Char)) :
    ∀ a ∈ Block.languageAttribute info, a.LeadsTo targets := by
  unfold Block.languageAttribute
  split <;> simp [Html.Attribute.LeadsTo]

variable (targets) in
theorem leadsTo_listOpening (first : Option Nat) :
    ∀ a ∈ (Block.listOpening first).attributes, a.LeadsTo targets := by
  unfold Block.listOpening
  split <;> simp [Token.attributes, Html.Attribute.LeadsTo]

mutual

theorem Block.leadTo_tokens : ∀ (block : Block) (tight : Bool),
    Covers targets definitions block.contents → LeadTo targets (block.tokens definitions tight)
  | .paragraph content, tight, h => by
      have hcontent := Inline.leadTo_allTokens _ (h content (List.mem_singleton_self _))
      cases tight <;> simpa [Block.tokens, Block.contentTokens, Token.attributes] using hcontent
  | .heading level content, tight, h => by
      have hcontent := Inline.leadTo_allTokens _ (h content (List.mem_singleton_self _))
      simpa [Block.tokens, Block.contentTokens, Token.attributes] using hcontent
  | .rule, tight, _ => by simp [Block.tokens, Token.attributes]
  | .code info chars, tight, _ => by
      have hlanguage := leadsTo_languageAttribute targets info
      cases h : chars.isEmpty <;> simpa [Block.tokens, Token.attributes, h] using hlanguage
  | .tags chars, tight, _ => by simp [Block.tokens, Token.attributes]
  | .quote blocks, tight, h => by
      simpa [Block.tokens, Token.attributes] using leadTo_allTokens blocks false h
  | .list first inner items, tight, h => by
      have hitems := leadTo_allTokens items inner h
      have hopening := leadsTo_listOpening targets first
      simpa [Block.tokens, Token.attributes, hitems] using hopening
  | .item blocks, tight, h => by
      simpa [Block.tokens, Token.attributes] using leadTo_allTokens blocks tight h
  | .table alignments head rows, tight, h => by
      obtain ⟨hhead, hrows⟩ := List.forall_mem_append.mp h
      have hheadTokens := leadTo_rowTokens .headCell alignments hhead
      have hrowTokens : ∀ row ∈ rows,
          LeadTo targets (Block.rowTokens definitions .cell alignments row) := fun row hrow =>
        leadTo_rowTokens .cell alignments fun content hcontent =>
          hrows content (List.mem_flatten.mpr ⟨row, hrow, hcontent⟩)
      simpa [Block.tokens, Token.attributes, leadTo_flatMap, hheadTokens] using hrowTokens

theorem Block.leadTo_allTokens : ∀ (blocks : List Block) (tight : Bool),
    Covers targets definitions (Block.allContents blocks) →
      LeadTo targets (Block.allTokens definitions tight blocks)
  | [], tight, _ => leadTo_nil
  | block :: blocks, tight, h => by
      obtain ⟨hblock, hblocks⟩ := List.forall_mem_append.mp h
      exact leadTo_append.mpr ⟨leadTo_tokens block tight hblock, leadTo_allTokens blocks tight hblocks⟩

end

/-- Every link and image of a page leads to a destination of its markup that is allowed. -/
theorem Outline.leadTo_tokens (outline : Outline) : LeadTo outline.targets outline.tokens :=
  Block.leadTo_allTokens outline.blocks false fun content hcontent _ htarget =>
    List.mem_flatMap.mpr ⟨content, hcontent, htarget⟩

end

/-! ## Pages -/

/-- The value of a reference: `#`, or an allowed destination of the markup in its escaped form, after
`mailto:` if it was read as a mail address. -/
def IsSafeReference (targets : List (Bool × List Char)) (name value : List Char) : Prop :=
  value = ['#'] ∨ ∃ mail destination, (mail, destination) ∈ targets ∧
    Destination.isAllowed destination ∧
    (mail → name = "href".toList ∧ ∃ rest after, Tag.mail? rest = some (destination, after)) ∧
    value = (if mail then "mailto:".toList else []) ++ destination.flatMap Html.escapeDestination

theorem isSafeReference_of_safe {targets : List (Bool × List Char)} {destination : List Char}
    (h : (false, destination) ∈ targets) (name : List Char) :
    IsSafeReference targets name
      ((Destination.safe destination).flatMap Html.escapeDestination) := by
  unfold Destination.safe
  split
  · rename_i hallowed
    exact .inr ⟨false, destination, h, hallowed, by simp, rfl⟩
  · exact .inl (by decide)

theorem isSafeReference_of_mail {outline : Outline} {address : List Char}
    (h : (true, address) ∈ outline.targets) :
    IsSafeReference outline.targets "href".toList
      ("mailto:".toList ++ (Destination.safe address).flatMap Html.escapeDestination) := by
  obtain ⟨rest, after, hmail⟩ := Outline.mail_targets h
  have hallowed := Destination.isAllowed_of_ne_colon (Tag.ne_colon_of_mail? hmail)
  rw [Destination.safe, if_pos hallowed]
  exact .inr ⟨true, address, h, hallowed, fun _ => ⟨rfl, rest, after, hmail⟩, rfl⟩

theorem Html.Attribute.LeadsTo.isSafeReference {outline : Outline} {a : Attribute}
    (h : a.LeadsTo outline.targets) {name value : List Char}
    (hwritten : a.written? = some (name, value))
    (hname : name = "href".toList ∨ name = "src".toList) :
    IsSafeReference outline.targets name value := by
  obtain ⟨written, hvalue, hpair⟩ := Option.map_eq_some_iff.mp hwritten
  obtain ⟨rfl, rfl⟩ := Prod.mk.inj hpair
  cases a with
  | href mail shown =>
      obtain ⟨destination, htarget, rfl⟩ := h
      obtain rfl := Option.some.inj hvalue
      cases mail with
      | false => exact isSafeReference_of_safe htarget _
      | true => exact isSafeReference_of_mail htarget
  | src shown =>
      obtain ⟨destination, htarget, rfl⟩ := h
      obtain rfl := Option.some.inj hvalue
      exact isSafeReference_of_safe htarget _
  | _ => exact absurd hname (by simp only [Html.Attribute.name]; decide)

/-- A value is quoted in a page: it stands there between quotes, and has none of its own. -/
def IsQuotedIn (page name value : List Char) : Prop :=
  Html.IsQuotable value ∧ ' ' :: name ++ ['=', '"'] ++ value ++ ['"'] <:+: page

theorem Html.isQuotedIn_write {tokens : List Token} {token : Token} (htoken : token ∈ tokens)
    {a : Attribute} (ha : a ∈ token.attributes) {name value : List Char}
    (hwritten : a.written? = some (name, value)) : IsQuotedIn (Html.write tokens) name value := by
  obtain ⟨written, hvalue, hpair⟩ := Option.map_eq_some_iff.mp hwritten
  obtain ⟨rfl, rfl⟩ := Prod.mk.inj hpair
  have hchars : a.chars = Html.quotedAttribute a.name written := by rw [Attribute.chars, hvalue]
  obtain ⟨atStart, hpart⟩ := Html.infix_writeFrom htoken true
  have hpage : a.chars <:+: Html.write tokens := (Html.infix_chars ha atStart).trans hpart
  rw [hchars] at hpage
  exact ⟨Attribute.isQuotable_of_value? hvalue, hpage⟩

structure IsSafe (outline : Outline) (html : List Char) : Prop where
  /-- A viewer reads the tags that are written for the markup, with the attributes as they are
  written, and escaped text; it is outside of any tag at the end. -/
  read : Html.Viewer.read html = ⟨Html.sightsFrom true outline.tokens, .text⟩
  /-- Every opening angle bracket is the first character of a tag that is written for the markup. -/
  angles : ∀ before after, html = before ++ '<' :: after →
    ∃ earlier token later atStart, outline.tokens = earlier ++ token :: later ∧ token.IsTag ∧
      before = Html.write earlier ∧
      '<' :: after = token.chars atStart ++ Html.writeFrom token.endsLine later
  /-- Nothing but the tags has angle brackets. -/
  texts : ∀ sight ∈ (Html.Viewer.read html).seen,
    (∃ c, sight = .char c ∧ c ≠ '<' ∧ c ≠ '>') ∨ ∃ tag, sight = .tag tag
  /-- Every tag of the markup is there in escaped form. -/
  raw : ∀ chars ∈ outline.rawTags, IsEscapedIn html chars
  /-- Every value ends at the quote that is written after it. -/
  values : ∀ tag, .tag tag ∈ (Html.Viewer.read html).seen → ∀ name value,
    (name, value) ∈ tag.attributes → IsQuotedIn html name value
  /-- Every reference leads where it may. -/
  references : ∀ tag, .tag tag ∈ (Html.Viewer.read html).seen → ∀ name value,
    (name, value) ∈ tag.attributes → name = "href".toList ∨ name = "src".toList →
      IsSafeReference outline.targets name value

theorem isSafe_write (outline : Outline) : IsSafe outline (Html.write outline.tokens) where
  read := Html.Viewer.read_write outline.tokens
  angles before after h := Html.angle_writeFrom h
  texts sight h := by
    rw [Html.Viewer.read_write] at h
    obtain ⟨token, -, atStart, hsight⟩ := Html.mem_sightsFrom h
    exact (Html.mem_sights hsight).imp_right fun ⟨tag, htag, _⟩ => ⟨tag, htag⟩
  raw := outline.isEscapedIn_write
  values tag h name value hattribute := by
    rw [Html.Viewer.read_write] at h
    obtain ⟨token, htoken, a, ha, hwritten⟩ := Html.mem_attributes_of_mem_sightsFrom h hattribute
    exact Html.isQuotedIn_write htoken ha hwritten
  references tag h name value hattribute hname := by
    rw [Html.Viewer.read_write] at h
    obtain ⟨token, htoken, a, ha, hwritten⟩ := Html.mem_attributes_of_mem_sightsFrom h hattribute
    exact (outline.leadTo_tokens token htoken a ha).isSafeReference hwritten hname

/-- The HTML of any markup has no tags, attributes or links but its own safe ones. -/
theorem toHtml_isSafe (source : String) :
    IsSafe (Outline.parse source.toList) (toHtml source).toList := by
  rw [toHtml, String.toList_ofList]
  exact isSafe_write _

end UsageBoard.Markup
