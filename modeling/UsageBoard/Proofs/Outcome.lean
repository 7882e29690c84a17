/-!
# Outcomes of several steps

A sequence of steps succeeds just if each step does.
-/

namespace UsageBoard

variable {ε α β : Type}

theorem exists_of_bind_eq_ok {x : Except ε α} {f : α → Except ε β} {y : β}
    (read : (x >>= f) = .ok y) : ∃ v, x = .ok v ∧ f v = .ok y := by
  cases x with
  | error why => cases read
  | ok v => exact ⟨v, rfl, read⟩

theorem exists_of_map_eq_ok {x : Except ε α} {f : α → β} {y : β} (read : x.map f = .ok y) :
    ∃ v, x = .ok v ∧ f v = y := by
  cases x with
  | error why => cases read
  | ok v => exact ⟨v, rfl, Except.ok.inj read⟩

theorem toOption_eq_some_iff {x : Except ε α} {v : α} : x.toOption = some v ↔ x = .ok v := by
  cases x with
  | error why => exact iff_of_false nofun nofun
  | ok w => exact ⟨fun same => congrArg Except.ok (Option.some.inj same), fun same => congrArg some (Except.ok.inj same)⟩

theorem mapM_map_eq_ok {decode : β → Except ε α} {encode : α → β} {values : List α}
    (back : ∀ value ∈ values, decode (encode value) = .ok value) :
    (values.map encode).mapM decode = .ok values := by
  induction values with
  | nil => rfl
  | cons value values ih =>
      obtain ⟨first, others⟩ := List.forall_mem_cons.mp back
      rw [List.map_cons, List.mapM_cons, first, ih others]
      rfl

end UsageBoard
