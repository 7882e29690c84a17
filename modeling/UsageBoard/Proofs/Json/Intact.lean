import UsageBoard.Json.Parser

/-!
# Texts that are read to their end

A text that is read to its end is well formed throughout, so that every part of it may be skipped
(`intact_of_complete`).
-/

namespace UsageBoard.Json

open UsageBoard.Document (Node Reading)
open UsageBoard.Document.Node (intact allIntact membersIntact)

theorem intact_numeral (numeral : Numeral) : numeral.node.intact := by
  unfold Numeral.node
  dsimp only
  split
  · rfl
  · split
    · rfl
    · split
      · rfl
      · split <;> rfl

theorem intact_of_readWord {word : List Char} {node found : Node} {cs rest : List Char}
    (whole : node.intact) (read : readWord word node cs = (found, some rest)) : found.intact := by
  unfold readWord at read
  split at read
  · obtain ⟨rfl, -⟩ := Prod.mk.inj read
    exact whole
  · cases (Prod.mk.inj read).2

theorem intact_of_readScalar {stain : Option Char} {cs rest : List Char} {node : Node}
    (read : readScalar stain cs = (node, some rest)) : node.intact := by
  unfold readScalar at read
  split at read
  · split at read
    · cases (Prod.mk.inj read).2
    · obtain ⟨rfl, -⟩ := Prod.mk.inj read
      rfl
    · obtain ⟨rfl, -⟩ := Prod.mk.inj read
      rfl
  · exact intact_of_readWord rfl read
  · exact intact_of_readWord rfl read
  · exact intact_of_readWord rfl read
  · split at read
    · cases (Prod.mk.inj read).2
    · obtain ⟨rfl, -⟩ := Prod.mk.inj read
      exact intact_numeral _

variable (stain : Option Char)

/-- What is read before some rest of a text is well formed. -/
structure ReadsIntact (fuel : Nat) : Prop where
  node : ∀ cs node rest, readNode stain fuel cs = (node, some rest) → node.intact
  items : ∀ cs items rest, readItems stain fuel cs = (items, some rest) → allIntact items
  members : ∀ cs members rest, readMembers stain fuel cs = (members, some rest) → membersIntact members

variable {stain}

theorem ReadsIntact.node_succ {fuel : Nat} (h : ReadsIntact stain fuel) (cs : List Char) (node : Node)
    (rest : List Char) (read : readNode stain (fuel + 1) cs = (node, some rest)) : node.intact := by
  rw [readNode] at read
  split at read
  · split at read
    · obtain ⟨rfl, -⟩ := Prod.mk.inj read
      rfl
    · obtain ⟨rfl, hrest⟩ := Prod.mk.inj read
      exact h.items _ _ _ (Prod.ext rfl hrest)
  · split at read
    · obtain ⟨rfl, -⟩ := Prod.mk.inj read
      rfl
    · obtain ⟨rfl, hrest⟩ := Prod.mk.inj read
      exact h.members _ _ _ (Prod.ext rfl hrest)
  · exact intact_of_readScalar read

theorem ReadsIntact.items_succ {fuel : Nat} (h : ReadsIntact stain fuel) (cs : List Char)
    (items : List Node) (rest : List Char)
    (read : readItems stain (fuel + 1) cs = (items, some rest)) : allIntact items := by
  rw [readItems] at read
  split at read
  · cases (Prod.mk.inj read).2
  · rename_i item after hitem
    have hwhole := h.node _ _ _ hitem
    split at read
    · obtain ⟨rfl, hrest⟩ := Prod.mk.inj read
      rw [allIntact, hwhole, h.items _ _ _ (Prod.ext rfl hrest)]
      rfl
    · obtain ⟨rfl, -⟩ := Prod.mk.inj read
      rw [allIntact, hwhole]
      rfl
    · cases (Prod.mk.inj read).2

theorem ReadsIntact.members_succ {fuel : Nat} (h : ReadsIntact stain fuel) (cs : List Char)
    (members : List (Option String × Node)) (rest : List Char)
    (read : readMembers stain (fuel + 1) cs = (members, some rest)) : membersIntact members := by
  rw [readMembers] at read
  split at read
  · split at read
    · cases (Prod.mk.inj read).2
    · dsimp only at read
      split at read
      · split at read
        · cases (Prod.mk.inj read).2
        · rename_i value after hvalue
          have hwhole := h.node _ _ _ hvalue
          split at read
          · obtain ⟨rfl, hrest⟩ := Prod.mk.inj read
            rw [membersIntact, hwhole, h.members _ _ _ (Prod.ext rfl hrest)]
            rfl
          · obtain ⟨rfl, -⟩ := Prod.mk.inj read
            rw [membersIntact, hwhole]
            rfl
          · cases (Prod.mk.inj read).2
      · cases (Prod.mk.inj read).2
  · cases (Prod.mk.inj read).2

theorem readsIntact (fuel : Nat) : ReadsIntact stain fuel := by
  induction fuel with
  | zero =>
      constructor
      · intro cs node rest read
        cases (Prod.mk.inj read).2
      · intro cs items rest read
        cases (Prod.mk.inj read).2
      · intro cs members rest read
        cases (Prod.mk.inj read).2
  | succ fuel ih => exact ⟨ih.node_succ, ih.items_succ, ih.members_succ⟩

/-- A text that is read to its end is well formed. -/
theorem intact_of_complete {cs : List Char} (complete : (readChars stain cs).complete) :
    (readChars stain cs).root.intact := by
  unfold readChars at complete ⊢
  split
  · rename_i root hread
    rw [hread] at complete
    cases complete
  · rename_i root rest hread
    exact (readsIntact _).node _ _ _ hread

end UsageBoard.Json
