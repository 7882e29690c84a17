import Mathlib.Data.List.TakeWhile
import UsageBoard.Markup.Page

/-!
# The targets of content

A link is written as a mail address only if it was read as one: what becomes of brackets and of
emphasis afterwards brings in no target.  Main statement: `Outline.mail_targets`.
-/

namespace UsageBoard.Markup

/-- Every target that is a mail address was read between angle brackets. -/
def MailsAreRead (parts : List Inline) : Prop :=
  ∀ address, (true, address) ∈ Inline.allTargets parts →
    ∃ rest after, Tag.mail? rest = some (address, after)

theorem Inline.mem_allTargets {target : Bool × List Char} {parts : List Inline} :
    target ∈ allTargets parts ↔ ∃ part ∈ parts, target ∈ part.targets := by
  induction parts with
  | nil => simp [allTargets]
  | cons part parts ih => simp [allTargets, ih]

theorem mailsAreRead_iff {parts : List Inline} :
    MailsAreRead parts ↔ ∀ part ∈ parts, MailsAreRead [part] := by
  constructor
  · intro h part hpart address haddress
    refine h address (Inline.mem_allTargets.mpr ⟨part, hpart, ?_⟩)
    simpa [Inline.allTargets] using haddress
  · intro h address haddress
    obtain ⟨part, hpart, htarget⟩ := Inline.mem_allTargets.mp haddress
    exact h part hpart address (by simpa [Inline.allTargets] using htarget)

theorem mailsAreRead_nil : MailsAreRead [] := mailsAreRead_iff.mpr (List.forall_mem_nil _)

theorem mailsAreRead_append {front back : List Inline} :
    MailsAreRead (front ++ back) ↔ MailsAreRead front ∧ MailsAreRead back := by
  rw [mailsAreRead_iff, List.forall_mem_append, ← mailsAreRead_iff, ← mailsAreRead_iff]

theorem mailsAreRead_reverse {parts : List Inline} :
    MailsAreRead parts.reverse ↔ MailsAreRead parts := by
  rw [mailsAreRead_iff, mailsAreRead_iff]
  simp only [List.mem_reverse]

/-- Putting parts into one leaves their targets as they are. -/
theorem mailsAreRead_of_targets {parts : List Inline} {outer : Inline}
    (heq : outer.targets = Inline.allTargets parts) (h : MailsAreRead parts) :
    MailsAreRead [outer] := by
  intro address haddress
  refine h address ?_
  simpa [Inline.allTargets, heq] using haddress

theorem mailsAreRead_leaf {part : Inline} (h : part.targets = []) : MailsAreRead [part] := by
  have hnil : part.targets = Inline.allTargets [] := h
  exact mailsAreRead_of_targets hnil mailsAreRead_nil

theorem mailsAreRead_link (destination title : List Char) {parts : List Inline}
    (h : MailsAreRead parts) : MailsAreRead [.link false destination title parts] := by
  intro address haddress
  exact h address (by simpa [Inline.allTargets, Inline.targets] using haddress)

theorem mailsAreRead_image (destination title : List Char) {parts : List Inline}
    (h : MailsAreRead parts) : MailsAreRead [.image destination title parts] := by
  intro address haddress
  exact h address (by simpa [Inline.allTargets, Inline.targets] using haddress)

/-! ## Emphasis -/

namespace Emphasis

theorem mailsAreRead_runText (sign : Char) (count : Nat) : MailsAreRead (runText sign count) := by
  unfold runText
  split
  · exact mailsAreRead_nil
  · exact mailsAreRead_leaf rfl

theorem mailsAreRead_wrap (sign : Char) (count : Nat) {parts : List Inline}
    (h : MailsAreRead parts) : MailsAreRead (wrap sign count parts) := by
  fun_induction wrap sign count parts with
  | case1 parts => exact h
  | case2 parts => exact mailsAreRead_of_targets rfl h
  | case3 parts => exact mailsAreRead_of_targets rfl h
  | case4 parts count ih =>
      refine ih ?_
      split
      · exact mailsAreRead_of_targets rfl h
      · exact mailsAreRead_of_targets rfl h

structure Stack.IsRead (stack : Stack) : Prop where
  openers : ∀ opener ∈ stack.openers, MailsAreRead opener.inside
  outside : MailsAreRead stack.outside

namespace Stack

variable {stack : Stack} {parts : List Inline}

theorem IsRead.append (h : stack.IsRead) (hparts : MailsAreRead parts) :
    (stack.append parts).IsRead := by
  rcases stack with ⟨_ | ⟨opener, openers⟩, outside⟩
  · exact ⟨List.forall_mem_nil _, mailsAreRead_append.mpr ⟨hparts, h.outside⟩⟩
  · obtain ⟨hopener, hopeners⟩ := List.forall_mem_cons.mp h.openers
    exact ⟨List.forall_mem_cons.mpr ⟨mailsAreRead_append.mpr ⟨hparts, hopener⟩, hopeners⟩, h.outside⟩

theorem IsRead.flattenOne (h : stack.IsRead) : stack.flattenOne.IsRead := by
  rcases stack with ⟨_ | ⟨opener, openers⟩, outside⟩
  · exact h
  · obtain ⟨hopener, hopeners⟩ := List.forall_mem_cons.mp h.openers
    exact IsRead.append ⟨hopeners, h.outside⟩
      (mailsAreRead_append.mpr ⟨hopener, mailsAreRead_runText _ _⟩)

theorem IsRead.flatten (h : stack.IsRead) (count : Nat) : (stack.flatten count).IsRead := by
  induction count generalizing stack with
  | zero => exact h
  | succ count ih => exact ih h.flattenOne

/-- What is left of an opener waits for another closing run. -/
theorem IsRead.reopen {openers : List Opener} {outside : List Inline}
    (h : (⟨openers, outside⟩ : Stack).IsRead) (hparts : MailsAreRead parts) (run : Run) (left : Nat)
    (waits : Prop) [Decidable waits] :
    (if waits then (⟨⟨run, left, parts⟩ :: openers, outside⟩ : Stack)
      else Stack.append ⟨openers, outside⟩ parts).IsRead := by
  split
  · exact ⟨List.forall_mem_cons.mpr ⟨hparts, h.openers⟩, h.outside⟩
  · exact h.append hparts

theorem IsRead.close (h : stack.IsRead) (run : Run) (steps left : Nat) :
    (close run steps left stack).IsRead := by
  induction steps generalizing left stack with
  | zero => exact h.append (mailsAreRead_runText _ _)
  | succ steps ih =>
      rw [Stack.close]
      split
      · split
        · exact ⟨List.forall_mem_cons.mpr ⟨mailsAreRead_nil, h.openers⟩, h.outside⟩
        · exact h.append (mailsAreRead_runText _ _)
      · rename_i index _
        have hcleared := h.flatten index
        simp only
        split
        · exact hcleared
        · rename_i opener openers heq
          have hopeners := hcleared.openers
          rw [heq] at hopeners
          obtain ⟨hopener, hothers⟩ := List.forall_mem_cons.mp hopeners
          have hinner := mailsAreRead_reverse.mpr (mailsAreRead_wrap run.sign (min left opener.left)
            (mailsAreRead_reverse.mpr hopener))
          have hrest := IsRead.reopen ⟨hothers, hcleared.outside⟩ hinner opener.run
            (opener.left - min left opener.left) (min left opener.left < opener.left)
          split
          · exact hrest
          · exact ih hrest _

theorem IsRead.push (h : stack.IsRead) {piece : Piece}
    (hpiece : ∀ content, piece = .part content → MailsAreRead [content]) :
    (stack.push piece).IsRead := by
  cases piece with
  | part content => exact h.append (hpiece content rfl)
  | run run =>
      rw [Stack.push]
      split
      · exact h.close run _ _
      · split
        · exact ⟨List.forall_mem_cons.mpr ⟨mailsAreRead_nil, h.openers⟩, h.outside⟩
        · exact h.append (mailsAreRead_runText _ _)

end Stack

theorem mailsAreRead_resolve {pieces : List Piece}
    (h : ∀ content, .part content ∈ pieces → MailsAreRead [content]) :
    MailsAreRead (resolve pieces) := by
  have hstack : (pieces.foldl Stack.push ⟨[], []⟩).IsRead := by
    have hstart : (⟨[], []⟩ : Stack).IsRead := ⟨List.forall_mem_nil _, mailsAreRead_nil⟩
    generalize (⟨[], []⟩ : Stack) = stack at hstart ⊢
    induction pieces generalizing stack with
    | nil => exact hstart
    | cons piece rest ih =>
        refine ih (fun content hcontent => h content (List.mem_cons_of_mem _ hcontent)) _ ?_
        exact hstart.push fun content heq => h content (heq ▸ List.mem_cons_self)
  exact mailsAreRead_reverse.mpr (hstack.flatten _).outside

end Emphasis

/-! ## Content -/

namespace Content

open Emphasis (Piece Run)

def PiecesAreRead (pieces : List Piece) : Prop :=
  ∀ content, .part content ∈ pieces → MailsAreRead [content]

theorem piecesAreRead_append {front back : List Piece} :
    PiecesAreRead (front ++ back) ↔ PiecesAreRead front ∧ PiecesAreRead back := by
  simp only [PiecesAreRead, List.mem_append, or_imp, forall_and]

theorem piecesAreRead_nil : PiecesAreRead [] := fun _ h => absurd h List.not_mem_nil

theorem piecesAreRead_part {content : Inline} (h : MailsAreRead [content]) :
    PiecesAreRead [.part content] := by
  intro other hother
  obtain rfl := Piece.part.inj (List.mem_singleton.mp hother)
  exact h

theorem piecesAreRead_text (chars : List Char) : PiecesAreRead [.part (.text chars)] :=
  piecesAreRead_part (mailsAreRead_leaf rfl)

structure State.IsRead (state : State) : Prop where
  brackets : ∀ bracket ∈ state.brackets, PiecesAreRead bracket.pieces
  outside : PiecesAreRead state.outside

namespace State

variable {state : State}

theorem IsRead.append (h : state.IsRead) {pieces : List Piece} (hpieces : PiecesAreRead pieces)
    (last : Char) : (state.append pieces last).IsRead := by
  rcases state with ⟨_ | ⟨bracket, brackets⟩, outside, before⟩
  · exact ⟨List.forall_mem_nil _, piecesAreRead_append.mpr ⟨hpieces, h.outside⟩⟩
  · obtain ⟨hbracket, hbrackets⟩ := List.forall_mem_cons.mp h.brackets
    exact ⟨List.forall_mem_cons.mpr ⟨piecesAreRead_append.mpr ⟨hpieces, hbracket⟩, hbrackets⟩,
      h.outside⟩

theorem IsRead.part (h : state.IsRead) {content : Inline} (hcontent : MailsAreRead [content])
    (last : Char) : (state.part content last).IsRead :=
  h.append (piecesAreRead_part hcontent) last

theorem IsRead.text (h : state.IsRead) (chars : List Char) (last : Char) :
    (state.text chars last).IsRead :=
  h.part (mailsAreRead_leaf rfl) last

theorem IsRead.flattenOne (h : state.IsRead) : state.flattenOne.IsRead := by
  rcases state with ⟨_ | ⟨bracket, brackets⟩, outside, last⟩
  · exact h
  · obtain ⟨hbracket, hbrackets⟩ := List.forall_mem_cons.mp h.brackets
    have hrest : (⟨brackets, outside, last⟩ : State).IsRead := ⟨hbrackets, h.outside⟩
    exact hrest.append (piecesAreRead_append.mpr ⟨hbracket, piecesAreRead_text _⟩) _

theorem IsRead.flatten (h : state.IsRead) (count : Nat) : (state.flatten count).IsRead := by
  induction count generalizing state with
  | zero => exact h
  | succ count ih => exact ih h.flattenOne

/-- A link in brackets is no mail address. -/
theorem IsRead.linked (h : state.IsRead) (target : Link.Target) : (state.linked target).IsRead := by
  rcases state with ⟨_ | ⟨bracket, brackets⟩, outside, last⟩
  · exact h
  · obtain ⟨hbracket, hbrackets⟩ := List.forall_mem_cons.mp h.brackets
    have hparts : MailsAreRead (Emphasis.resolve bracket.pieces.reverse) :=
      Emphasis.mailsAreRead_resolve fun content hcontent =>
        hbracket content (List.mem_reverse.mp hcontent)
    simp only [State.linked]
    split
    · have hrest : (⟨brackets, outside, last⟩ : State).IsRead := ⟨hbrackets, h.outside⟩
      exact hrest.part (mailsAreRead_image _ _ hparts) _
    · have hrest : (⟨deactivate brackets, outside, last⟩ : State).IsRead := by
        refine ⟨?_, h.outside⟩
        intro other hother
        obtain ⟨bracket, hbracket, rfl⟩ := List.mem_map.mp hother
        split <;> exact hbrackets bracket hbracket
      exact hrest.part (mailsAreRead_link _ _ hparts) _

theorem IsRead.open (h : state.IsRead) (image : Bool) (rest : List Char) (last : Option Char) :
    (⟨⟨image, true, rest, []⟩ :: state.brackets, state.outside, last⟩ : State).IsRead :=
  ⟨List.forall_mem_cons.mpr ⟨piecesAreRead_nil, h.brackets⟩, h.outside⟩

end State

variable {state : State} (definitions : Link.Definitions)

theorem isRead_closeBracket (h : state.IsRead) (rest : List Char) :
    (closeBracket definitions state rest).1.IsRead := by
  unfold closeBracket
  split
  · exact h.text _ _
  · simp only
    split
    · split
      · exact h.linked _
      · exact h.flattenOne.text _ _
    · exact h.flattenOne.text _ _

/-- Only here does a link become a mail address. -/
theorem isRead_readAngle (h : state.IsRead) (rest : List Char) :
    (readAngle state rest).1.IsRead := by
  unfold readAngle
  split
  · exact h.part (mailsAreRead_link _ _ (mailsAreRead_leaf rfl)) _
  · split
    · rename_i address after hmail
      refine h.part ?_ _
      intro found hfound
      obtain rfl : found = address := by simpa [Inline.allTargets, Inline.targets] using hfound
      exact ⟨rest, after, hmail⟩
    · split
      · exact h.part (mailsAreRead_leaf rfl) _
      · exact h.text _ _

theorem isRead_readBlanks (h : state.IsRead) (cs : List Char) : (readBlanks state cs).1.IsRead := by
  simp only [readBlanks]
  split
  · exact h
  · refine h.part (mailsAreRead_leaf ?_) _
    split <;> rfl
  · exact h.text _ _

theorem isRead_readOne (h : state.IsRead) (cs : List Char) :
    (readOne definitions state cs).1.IsRead := by
  unfold readOne
  split
  · exact h
  · exact h.part (mailsAreRead_leaf rfl) _
  · split <;> exact h.text _ _
  · simp only
    split
    · exact h.part (mailsAreRead_leaf rfl) _
    · exact h.text _ _
  · split <;> exact h.text _ _
  · exact isRead_readAngle h _
  · exact h.open _ _ _
  · exact h.open _ _ _
  · exact isRead_closeBracket definitions h _
  · exact h.part (mailsAreRead_leaf rfl) _
  · split
    · exact isRead_readBlanks h _
    · split
      · simp only
        split
        · exact h.text _ _
        · refine h.append ?_ _
          intro content hcontent
          exact absurd (List.mem_singleton.mp hcontent) (by simp)
      · exact h.text _ _

theorem isRead_readAll (h : state.IsRead) (steps : Nat) (cs : List Char) :
    (readAll definitions steps state cs).IsRead := by
  induction steps generalizing state cs with
  | zero => exact h
  | succ steps ih =>
      cases cs with
      | nil => exact h
      | cons c cs => exact ih (isRead_readOne definitions h _) _

/-- A mail address in content stood between angle brackets. -/
theorem mail_targets_parse (cs : List Char) : MailsAreRead (parse definitions cs) := by
  refine Emphasis.mailsAreRead_resolve ?_
  have hstart : State.start.IsRead := ⟨List.forall_mem_nil _, piecesAreRead_nil⟩
  have hall := isRead_readAll definitions hstart cs.length cs
  intro content hcontent
  exact (hall.flatten _).outside content (List.mem_reverse.mp hcontent)

end Content

theorem Outline.mail_targets {outline : Outline} {address : List Char}
    (h : (true, address) ∈ outline.targets) : ∃ rest after, Tag.mail? rest = some (address, after) := by
  obtain ⟨content, -, htarget⟩ := List.mem_flatMap.mp h
  exact Content.mail_targets_parse _ content address htarget

/-! ## Mail addresses -/

theorem Tag.ne_colon_of_mail? {cs address after : List Char} (h : mail? cs = some (address, after)) :
    ∀ c ∈ address, c ≠ ':' := by
  simp only [mail?] at h
  split at h
  · rename_i rest _
    split at h
    · split at h
      · obtain ⟨rfl, -⟩ := Prod.mk.inj (Option.some.inj h)
        simp only [List.forall_mem_append, List.forall_mem_cons]
        refine ⟨?_, by decide, ?_⟩
        · rintro c hc rfl
          exact absurd (List.mem_takeWhile_imp hc) (by decide)
        · rintro c hc rfl
          exact absurd (List.mem_takeWhile_imp hc) (by decide)
      · contradiction
    · contradiction
  · contradiction

theorem Destination.isAllowed_of_ne_colon {destination : List Char}
    (h : ∀ c ∈ destination, c ≠ ':') : isAllowed destination := by
  have hscheme : scheme? destination = none := by
    unfold scheme?
    simp only
    split
    · rename_i heq
      have hcleaned : ':' ∈ cleaned destination :=
        (List.dropWhile_sublist _).subset (heq ▸ List.mem_cons_self)
      exact absurd rfl (h ':' (List.mem_filter.mp hcleaned).1)
    · rfl
  rw [isAllowed, hscheme]

end UsageBoard.Markup
