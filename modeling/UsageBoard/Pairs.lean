/-!
# Values by key, and the latest of some values

A list of pairs holds values by key; of equal keys the first one counts.
-/

namespace UsageBoard

section Lookup

variable {κ α : Type} [BEq κ] [LawfulBEq κ]

theorem lookup_cons_eq_ite (k : κ) (pair : κ × α) (pairs : List (κ × α)) :
    (pair :: pairs).lookup k = if k == pair.1 then some pair.2 else pairs.lookup k := by
  rcases pair with ⟨other, value⟩
  by_cases h : k = other
  · simp [h]
  · simp [List.lookup_cons, beq_false_of_ne h]

theorem lookup_filter_ne (k key : κ) (pairs : List (κ × α)) :
    (pairs.filter fun pair => pair.1 != key).lookup k =
      if k == key then none else pairs.lookup k := by
  induction pairs with
  | nil => simp
  | cons pair rest ih =>
      by_cases hpair : pair.1 = key
      · rw [List.filter_cons_of_neg (by simpa using hpair), ih, lookup_cons_eq_ite, hpair]
        by_cases hk : k = key <;> simp [hk]
      · rw [List.filter_cons_of_pos (by simpa using hpair), lookup_cons_eq_ite, ih,
          lookup_cons_eq_ite]
        by_cases hk : k = pair.1 <;> simp [hk, hpair]

end Lookup

/-- Adds to the sum of a key; a new key comes last, and its sum begins with `zero`. -/
def accumulate {κ α β : Type} [BEq κ] (zero : α) (add : α → β → α) (key : κ) (x : β) :
    List (κ × α) → List (κ × α)
  | [] => [(key, add zero x)]
  | (other, sum) :: rest =>
      if other == key then (other, add sum x) :: rest
      else (other, sum) :: accumulate zero add key x rest

section Accumulate

variable {κ α β : Type} [BEq κ] [LawfulBEq κ] {zero : α} {add : α → β → α} {key : κ} {x : β}

theorem map_fst_accumulate (sums : List (κ × α)) :
    (accumulate zero add key x sums).map Prod.fst =
      if key ∈ sums.map Prod.fst then sums.map Prod.fst else sums.map Prod.fst ++ [key] := by
  induction sums with
  | nil => rfl
  | cons entry rest ih =>
      rcases entry with ⟨other, sum⟩
      by_cases h : other = key
      · simp [accumulate, h]
      · have hne : key ≠ other := fun e => h e.symm
        simp only [accumulate, beq_iff_eq, h, if_false, List.map_cons, ih, List.mem_cons, hne,
          false_or]
        split <;> rfl

theorem lookup_accumulate (k : κ) (sums : List (κ × α)) :
    (accumulate zero add key x sums).lookup k =
      if k == key then some (add ((sums.lookup key).getD zero) x) else sums.lookup k := by
  induction sums with
  | nil => simp [accumulate, lookup_cons_eq_ite]
  | cons entry rest ih =>
      rcases entry with ⟨other, sum⟩
      by_cases h : other = key
      · subst h
        by_cases hk : k = other <;> simp [accumulate, lookup_cons_eq_ite, hk]
      · have hne : key ≠ other := fun e => h e.symm
        by_cases hk : k = other
        · subst hk
          simp [accumulate, h, lookup_cons_eq_ite]
        · simp [accumulate, h, hne, hk, lookup_cons_eq_ite, ih]

end Accumulate

/-- What the latest element gives, if it gives anything, is the latest that is given. -/
theorem findSome?_reverse_append {α β : Type} (find : α → Option β) (past : List α) (last : α) :
    (past ++ [last]).reverse.findSome? find = (find last).or (past.reverse.findSome? find) := by
  simp only [List.reverse_append, List.reverse_singleton, List.singleton_append, List.findSome?_cons]
  cases find last <;> rfl

end UsageBoard
