import UsageBoard.Markup.Page

/-!
# How a page begins

Blocks begin with tags of their own, and raw tags with an angle bracket, which is escaped; so no page
begins with a letter.

## Main statements

* `Cursor.begins_remaining`: raw tags begin with an angle bracket or with blanks before it.
* `OutlineState.IsSet.readLines`: no block of an outline begins otherwise.
* `head?_toHtml`: the first character of a page.
-/

namespace UsageBoard.Markup

open UsageBoard.Markup.Html (Token)

/-- Text that has blanks or an angle bracket in front. -/
def Begins (cs : List Char) : Prop := ∃ c rest, cs = c :: rest ∧ (c = '<' ∨ c = ' ' ∨ c = '\t')

theorem Begins.append {cs : List Char} (begins : Begins cs) (ds : List Char) : Begins (cs ++ ds) := by
  obtain ⟨c, rest, rfl, first⟩ := begins
  exact ⟨c, rest ++ ds, rfl, first⟩

/-! ## Cursors -/

namespace Cursor

theorem skipFrom_rest (cs : List Char) (column wanted : Nat) :
    ∃ blanks, cs = blanks ++ (skipFrom cs column wanted).2.rest ∧ ∀ c ∈ blanks, c = ' ' ∨ c = '\t' := by
  fun_induction skipFrom cs column wanted with
  | case1 rest column wanted ih =>
      obtain ⟨blanks, split, blank⟩ := ih
      exact ⟨' ' :: blanks, congrArg (' ' :: ·) split, List.forall_mem_cons.mpr ⟨.inl rfl, blank⟩⟩
  | case2 rest column wanted width fits ih =>
      obtain ⟨blanks, split, blank⟩ := ih
      exact ⟨'\t' :: blanks, congrArg ('\t' :: ·) split, List.forall_mem_cons.mpr ⟨.inr rfl, blank⟩⟩
  | case3 rest column wanted width wide => exact ⟨['\t'], rfl, List.forall_mem_singleton.mpr (.inr rfl)⟩
  | case4 rest column wanted => exact ⟨[], rfl, List.forall_mem_nil _⟩

theorem skip_rest (cursor : Cursor) (wanted : Nat) :
    ∃ blanks, cursor.rest = blanks ++ (cursor.skip wanted).2.rest ∧ ∀ c ∈ blanks, c = ' ' ∨ c = '\t' := by
  unfold skip
  split
  · exact ⟨[], rfl, List.forall_mem_nil _⟩
  · exact skipFrom_rest _ _ _

/-- What is left of a line begins with the angle bracket that follows its blanks, or with these. -/
theorem begins_remaining {cursor : Cursor} {wanted : Nat} {rest : List Char}
    (angle : (cursor.skipUpTo wanted).2.rest = '<' :: rest) : Begins cursor.remaining := by
  obtain ⟨blanks, split, blank⟩ := cursor.skip_rest wanted
  have after : (cursor.skip wanted).2.rest = '<' :: rest := angle
  rw [after] at split
  rw [remaining, split]
  cases cursor.spare with
  | succ spare => exact ⟨' ', _, rfl, .inr (.inl rfl)⟩
  | zero =>
      cases blanks with
      | nil => exact ⟨'<', rest, rfl, .inl rfl⟩
      | cons c blanks => exact ⟨c, blanks ++ '<' :: rest, rfl, .inr (blank c List.mem_cons_self)⟩

end Cursor

/-! ## Outlines -/

/-- Raw tags have blanks or an angle bracket in front. -/
def Block.IsSet : Block → Prop
  | .tags chars => Begins chars
  | _ => True

theorem Frame.isSet_toBlock (frame : Frame) : frame.toBlock.IsSet := by
  unfold Frame.toBlock
  split <;> trivial

namespace OutlineState

/-- The blocks outside of all containers are set; what is in containers has their tags in front. -/
def IsSet (state : OutlineState) : Prop := ∀ block ∈ state.blocks, block.IsSet

variable {state : OutlineState}

theorem IsSet.of_blocks {other : OutlineState} (set : state.IsSet) (same : other.blocks = state.blocks) :
    other.IsSet := by
  unfold IsSet
  rwa [same]

theorem IsSet.append (set : state.IsSet) {block : Block} (own : block.IsSet) : (state.append block).IsSet := by
  unfold OutlineState.append
  split
  · exact List.forall_mem_cons.mpr ⟨own, set⟩
  · exact set

theorem IsSet.close (set : state.IsSet) : state.close.IsSet := by
  unfold OutlineState.close
  split
  · exact set
  · rename_i frame frames _
    have outer : IsSet { state with frames } := set
    exact outer.append frame.isSet_toBlock

theorem IsSet.closeMany (set : state.IsSet) (count : Nat) : (closeMany count state).IsSet := by
  induction count generalizing state with
  | zero => exact set
  | succ count ih => exact ih set.close

theorem loosenAround_blocks (state : OutlineState) : state.loosenAround.blocks = state.blocks := by
  unfold loosenAround
  split <;> rfl

theorem IsSet.loosen (set : state.IsSet) :
    (if state.afterBlank then { state.loosenAround with afterBlank := false } else state).IsSet := by
  split
  · exact set.of_blocks (loosenAround_blocks state)
  · exact set

theorem IsSet.finishList (set : state.IsSet) : state.finishList.IsSet := by
  unfold OutlineState.finishList
  dsimp only
  split
  · exact set.close.loosen
  · exact set.loosen

theorem IsSet.openContainer (set : state.IsSet) (container : Container) :
    (state.openContainer container).IsSet := set

theorem IsSet.continueList (set : state.IsSet) (marker : Marker.ListMarker) :
    (state.continueList marker).IsSet := by
  unfold OutlineState.continueList
  split
  · split
    · exact set
    · exact set.finishList
  · exact set
  · exact set.finishList

theorem IsSet.openContainers (set : state.IsSet) (steps : Nat) (cursor : Cursor) :
    (openContainers steps state cursor).1.IsSet := by
  induction steps generalizing state cursor with
  | zero => exact set
  | succ steps ih =>
      simp only [OutlineState.openContainers]
      split
      · exact set
      · split
        · split
          · exact set.continueList _
          · split
            · exact ih ((set.continueList _).openContainer _) _
            · exact ih ((set.continueList _).openContainer _) _
        · exact ih (set.finishList.openContainer _) _
        · exact set

theorem IsSet.blankLine (set : state.IsSet) (bare : Bool) : (state.blankLine bare).IsSet := by
  unfold OutlineState.blankLine
  split
  · exact set
  · exact set
  · cases bare
    · exact set
    · exact set.close
  · exact set

theorem IsSet.readParagraph (set : state.IsSet) (first : List Char) (next : List Line) :
    (state.readParagraph first next).1.IsSet := by
  unfold OutlineState.readParagraph
  dsimp only
  split
  · exact set.append trivial
  · split
    · exact set
    · split
      · exact set.append trivial
      · exact set.append trivial

theorem exists_of_blockEnd? {cs : List Char} {blockEnd : Tag.BlockEnd}
    (found : Tag.blockEnd? cs = some blockEnd) : ∃ rest, cs = '<' :: rest := by
  unfold Tag.blockEnd? at found
  split at found
  · exact ⟨_, rfl⟩
  · contradiction

theorem IsSet.readBlock (set : state.IsSet) (line : Line) (cursor : Cursor) (next : List Line) :
    (state.readBlock line cursor next).1.IsSet := by
  unfold OutlineState.readBlock
  dsimp only
  split
  · exact (@IsSet.append _ set.finishList (.code none _) trivial).of_blocks rfl
  · split
    · -- the only block with a text of its own in front
      rename_i blockEnd found
      obtain ⟨rest, angle⟩ := exists_of_blockEnd? found
      exact set.finishList.append (((Cursor.begins_remaining angle).append _).append _)
    · split
      · exact set.finishList.append trivial
      · split
        · exact set.finishList.append trivial
        · exact set.finishList.append trivial
        · exact set.finishList.readParagraph _ _

theorem IsSet.readLine (set : state.IsSet) (line : Line) (next : List Line) :
    (state.readLine line next).1.IsSet := by
  unfold OutlineState.readLine
  dsimp only
  have plain : IsSet { state with bareItem := false } := set
  have closed := plain.closeMany
    (state.frames.length - (matchContainers state.containers (Cursor.start line)).1)
  have opened := closed.openContainers (line.chars.length + 1)
    (matchContainers state.containers (Cursor.start line)).2
  split
  · rename_i found
    rw [found] at opened
    exact opened
  · rename_i found
    rw [found] at opened
    split
    · exact opened.blankLine _
    · exact opened.readBlock _ _ _

/-- No block of an outline begins otherwise, whatever lines there are. -/
theorem IsSet.readLines (set : state.IsSet) (steps : Nat) (lines : List Line) :
    (readLines steps state lines).IsSet := by
  induction steps generalizing state lines with
  | zero => exact set
  | succ steps ih =>
      cases lines with
      | nil => exact set
      | cons line next => exact ih (set.readLine line next) _

end OutlineState

theorem Outline.isSet_parse (cs : List Char) : ∀ block ∈ (Outline.parse cs).blocks, block.IsSet := by
  have start : OutlineState.start.IsSet := List.forall_mem_nil _
  have closed := (start.readLines (Line.split cs).length (Line.split cs)).closeMany
    (OutlineState.readLines (Line.split cs).length .start (Line.split cs)).frames.length
  intro block hblock
  exact closed block (List.mem_reverse.mp hblock)

/-! ## Pages -/

/-- What a page may have in front. -/
def IsFront (c : Char) : Prop := c = '<' ∨ c = '&' ∨ c = ' ' ∨ c = '\t'

theorem Begins.head?_escaped {cs : List Char} (begins : Begins cs) (rest : List Char) :
    ∀ c ∈ (cs.flatMap Html.escapeText ++ rest).head?, IsFront c := by
  obtain ⟨first, cs, rfl, rfl | rfl | rfl⟩ := begins
  · exact fun c hc => .inr (.inl (Option.some.inj hc).symm)
  · exact fun c hc => .inr (.inr (.inl (Option.some.inj hc).symm))
  · exact fun c hc => .inr (.inr (.inr (Option.some.inj hc).symm))

theorem Block.head?_write {definitions : Link.Definitions} {block : Block} (set : block.IsSet)
    (tokens : List Token) :
    ∀ c ∈ (Html.write (block.tokens definitions false ++ tokens)).head?, IsFront c := by
  have tag : ∀ rest : List Char, ∀ c ∈ ('<' :: rest).head?, IsFront c :=
    fun rest c hc => .inl (Option.some.inj hc).symm
  cases block with
  | tags chars => exact set.head?_escaped _
  | code info chars => exact tag _
  | list first tight items =>
      simp only [Block.tokens, Block.listOpening]
      split <;> exact tag _
  | paragraph content => exact tag _
  | heading level content => exact tag _
  | rule => exact tag _
  | quote blocks => exact tag _
  | item blocks => exact tag _
  | table alignments head rows => exact tag _

/-- A page has a tag in front, or raw tags in their escaped form with blanks before them. -/
theorem head?_toHtml (source : String) : ∀ c ∈ (toHtml source).toList.head?, IsFront c := by
  rw [toHtml, String.toList_ofList, Outline.tokens]
  have set := Outline.isSet_parse source.toList
  cases blocks : (Outline.parse source.toList).blocks with
  | nil => exact fun c hc => nomatch hc
  | cons block rest =>
      rw [blocks] at set
      exact Block.head?_write (set block List.mem_cons_self) _

end UsageBoard.Markup
