import UsageBoard.Markup.Page
import UsageBoard.Proofs.Markup.Viewer

/-!
# Tags in the markup

Tags of the markup itself are no tags of its page: they are in the page as escaped text, or in the
escaped text of an image.  Main statement: `Outline.isEscapedIn_write`.
-/

namespace UsageBoard.Markup

open UsageBoard.Markup.Html (Token Attribute Element)
open UsageBoard.Markup.Marker (CellAlignment)

/-! ## The tags -/

mutual

/-- The tags in a part of the content, each as the markup has it. -/
def Inline.rawTags : Inline → List (List Char)
  | .tag chars => [chars]
  | .emphasis parts => allRawTags parts
  | .strong parts => allRawTags parts
  | .struck parts => allRawTags parts
  | .link _ _ _ parts => allRawTags parts
  | .image _ _ parts => allRawTags parts
  | _ => []

def Inline.allRawTags : List Inline → List (List Char)
  | [] => []
  | part :: parts => rawTags part ++ allRawTags parts

end

namespace Block

def contentRawTags (definitions : Link.Definitions) (content : List Char) : List (List Char) :=
  Inline.allRawTags (Content.parse definitions content)

/-- The tags in the cells of a row, of which those beyond the columns are left out. -/
def rowRawTags (definitions : Link.Definitions) (alignments : List CellAlignment)
    (cells : List (List Char)) : List (List Char) :=
  (cells.zip alignments).flatMap fun cell => contentRawTags definitions cell.1

mutual

def rawTags (definitions : Link.Definitions) : Block → List (List Char)
  | .paragraph content => contentRawTags definitions content
  | .heading _ content => contentRawTags definitions content
  | .tags chars => [chars]
  | .quote blocks => allRawTags definitions blocks
  | .list _ _ items => allRawTags definitions items
  | .item blocks => allRawTags definitions blocks
  | .table alignments head rows =>
      rowRawTags definitions alignments head ++ rows.flatMap (rowRawTags definitions alignments)
  | _ => []

def allRawTags (definitions : Link.Definitions) : List Block → List (List Char)
  | [] => []
  | block :: blocks => rawTags definitions block ++ allRawTags definitions blocks

end

end Block

def Outline.rawTags (outline : Outline) : List (List Char) :=
  Block.allRawTags outline.definitions outline.blocks

/-! ## The tokens that show them -/

/-- A token shows some characters as text, or in the text of an image. -/
def Html.Token.IsText (chars : List Char) : Token → Prop
  | .text shown => shown = chars
  | .single _ attributes => ∃ alt, .alt alt ∈ attributes ∧ chars <:+: alt
  | _ => False

def AreShown (raw : List (List Char)) (tokens : List Token) : Prop :=
  ∀ chars ∈ raw, ∃ token ∈ tokens, token.IsText chars

theorem areShown_nil (tokens : List Token) : AreShown [] tokens := List.forall_mem_nil _

theorem AreShown.mono {raw : List (List Char)} {some all : List Token} (h : AreShown raw some)
    (hsub : some ⊆ all) : AreShown raw all := by
  intro chars hchars
  obtain ⟨token, htoken, htext⟩ := h chars hchars
  exact ⟨token, hsub htoken, htext⟩

theorem AreShown.within {raw : List (List Char)} {some : List Token} (h : AreShown raw some)
    (front back : List Token) : AreShown raw (front ++ some ++ back) := by
  refine h.mono ?_
  intro token htoken
  exact List.mem_append_left _ (List.mem_append_right _ htoken)

theorem AreShown.append {earlier later : List (List Char)} {some rest : List Token}
    (hearlier : AreShown earlier some) (hlater : AreShown later rest) :
    AreShown (earlier ++ later) (some ++ rest) := by
  refine List.forall_mem_append.mpr ⟨?_, ?_⟩
  · exact hearlier.mono (List.subset_append_left _ _)
  · exact hlater.mono (List.subset_append_right _ _)

theorem areShown_flatMap {α : Type} {xs : List α} {raw : α → List (List Char)}
    {tokens : α → List Token} (h : ∀ x ∈ xs, AreShown (raw x) (tokens x)) :
    AreShown (xs.flatMap raw) (xs.flatMap tokens) := by
  induction xs with
  | nil => exact areShown_nil _
  | cons x xs ih =>
      obtain ⟨hx, hxs⟩ := List.forall_mem_cons.mp h
      exact hx.append (ih hxs)

mutual

theorem Inline.infix_altChars : ∀ (part : Inline) (chars : List Char), chars ∈ part.rawTags →
    chars <:+: part.altChars
  | .tag chars, raw, h => by
      obtain rfl := List.mem_singleton.mp h
      exact List.infix_refl _
  | .emphasis parts, raw, h => infix_allAltChars parts raw h
  | .strong parts, raw, h => infix_allAltChars parts raw h
  | .struck parts, raw, h => infix_allAltChars parts raw h
  | .link _ _ _ parts, raw, h => infix_allAltChars parts raw h
  | .image _ _ parts, raw, h => infix_allAltChars parts raw h
  | .text _, raw, h => absurd h List.not_mem_nil
  | .code _, raw, h => absurd h List.not_mem_nil
  | .softBreak, raw, h => absurd h List.not_mem_nil
  | .hardBreak, raw, h => absurd h List.not_mem_nil

theorem Inline.infix_allAltChars : ∀ (parts : List Inline) (chars : List Char),
    chars ∈ Inline.allRawTags parts → chars <:+: Inline.allAltChars parts
  | [], raw, h => absurd h List.not_mem_nil
  | part :: parts, raw, h => by
      rcases List.mem_append.mp h with h | h
      · exact List.infix_append_of_infix_left (infix_altChars part raw h)
      · exact List.infix_append_of_infix_right (infix_allAltChars parts raw h)

end

mutual

theorem Inline.areShown_rawTags : ∀ part : Inline, AreShown part.rawTags part.tokens
  | .tag chars => by
      intro raw hraw
      obtain rfl := List.mem_singleton.mp hraw
      exact ⟨_, List.mem_singleton_self _, rfl⟩
  | .emphasis parts => (areShown_allRawTags parts).within [_] [_]
  | .strong parts => (areShown_allRawTags parts).within [_] [_]
  | .struck parts => (areShown_allRawTags parts).within [_] [_]
  | .link _ _ _ parts => (areShown_allRawTags parts).within [_] [_]
  | .image destination title parts => by
      intro raw hraw
      exact ⟨_, List.mem_singleton_self _, Inline.allAltChars parts, by simp,
        infix_allAltChars parts raw hraw⟩
  | .text _ => areShown_nil _
  | .code _ => areShown_nil _
  | .softBreak => areShown_nil _
  | .hardBreak => areShown_nil _

theorem Inline.areShown_allRawTags : ∀ parts : List Inline,
    AreShown (Inline.allRawTags parts) (Inline.allTokens parts)
  | [] => areShown_nil _
  | part :: parts => (areShown_rawTags part).append (areShown_allRawTags parts)

end

namespace Block

variable {definitions : Link.Definitions}

theorem areShown_contentRawTags (content : List Char) :
    AreShown (contentRawTags definitions content) (contentTokens definitions content) :=
  Inline.areShown_allRawTags _

theorem areShown_rowRawTags (element : Element) (alignments : List CellAlignment)
    (cells : List (List Char)) :
    AreShown (rowRawTags definitions alignments cells)
      (rowTokens definitions element alignments cells) := by
  refine areShown_flatMap ?_
  rintro ⟨content, alignment⟩ -
  exact (areShown_contentRawTags content).within [_] [_]

mutual

theorem areShown_rawTags : ∀ (block : Block) (tight : Bool),
    AreShown (block.rawTags definitions) (block.tokens definitions tight)
  | .paragraph content, true => areShown_contentRawTags content
  | .paragraph content, false => (areShown_contentRawTags content).within [_, _] [_, _]
  | .heading _ content, _ => (areShown_contentRawTags content).within [_, _] [_, _]
  | .tags chars, _ => by
      intro raw hraw
      obtain rfl := List.mem_singleton.mp hraw
      exact ⟨_, List.mem_singleton_self _, rfl⟩
  | .quote blocks, _ => (areShown_allRawTags blocks false).within [_, _, _] [_, _]
  | .list _ inner items, _ => (areShown_allRawTags items inner).within [_, _, _] [_, _]
  | .item blocks, tight => (areShown_allRawTags blocks tight).within [_, _] [_, _]
  | .table alignments head rows, _ => by
      have hhead : AreShown (rowRawTags definitions alignments head) _ :=
        areShown_rowRawTags .headCell alignments head
      have hrows : AreShown (rows.flatMap (rowRawTags definitions alignments)) _ :=
        areShown_flatMap fun row _ =>
          (areShown_rowRawTags .cell alignments row).within [.opening .tableRow []]
            [.closing .tableRow, .newline]
      exact ((hhead.within [_, _, _] [_, _, _, _]).append hrows).within [] [_, _, _]
  | .rule, _ => areShown_nil _
  | .code _ _, _ => areShown_nil _

theorem areShown_allRawTags : ∀ (blocks : List Block) (tight : Bool),
    AreShown (allRawTags definitions blocks) (allTokens definitions tight blocks)
  | [], _ => areShown_nil _
  | block :: blocks, tight => (areShown_rawTags block tight).append (areShown_allRawTags blocks tight)

end

end Block

theorem Outline.areShown_rawTags (outline : Outline) : AreShown outline.rawTags outline.tokens :=
  Block.areShown_allRawTags outline.blocks false

/-! ## Their escaped form -/

def IsEscapedIn (page chars : List Char) : Prop :=
  chars.flatMap Html.escapeText <:+: page ∨ chars.flatMap Html.escapeValue <:+: page

theorem IsEscapedIn.trans {page part chars : List Char} (h : IsEscapedIn part chars)
    (hpart : part <:+: page) : IsEscapedIn page chars :=
  h.imp (fun h => h.trans hpart) (fun h => h.trans hpart)

theorem Html.Token.IsText.isEscapedIn {token : Token} {chars : List Char} (h : token.IsText chars)
    (lineStart : Bool) : IsEscapedIn (token.chars lineStart) chars := by
  cases token with
  | text shown =>
      obtain rfl : shown = chars := h
      exact .inl (List.infix_refl _)
  | single element attributes =>
      obtain ⟨alt, hmem, hpart⟩ := h
      have hvalue : alt.flatMap Html.escapeValue <:+: (Attribute.alt alt).chars :=
        List.infix_append _ _ _
      have htoken : (Attribute.alt alt).chars <:+: (Token.single element attributes).chars lineStart :=
        Html.infix_chars hmem lineStart
      exact .inr ((hpart.flatMap Html.escapeValue).trans (hvalue.trans htoken))
  | _ => exact absurd h id

/-- Every tag of the markup is in its page in escaped form. -/
theorem Outline.isEscapedIn_write (outline : Outline) :
    ∀ chars ∈ outline.rawTags, IsEscapedIn (Html.write outline.tokens) chars := by
  intro chars hchars
  obtain ⟨token, htoken, htext⟩ := outline.areShown_rawTags chars hchars
  obtain ⟨atStart, hpart⟩ := Html.infix_writeFrom htoken true
  exact (htext.isEscapedIn atStart).trans hpart

end UsageBoard.Markup
