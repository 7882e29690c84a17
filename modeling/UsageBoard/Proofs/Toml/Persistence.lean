import Mathlib.Data.List.Basic
import UsageBoard.Toml.Parser

/-!
# TOML texts that go on

What a reader finds at the front of a text is what it finds there when more text follows on a line of
its own.  `Persists` says so of one reading; it is kept by the ways in which readers are put together,
so that it holds of each reader by its parts.

## Main statements

* `Persists.bind`, `Persists.onHead`: how readings are put together.
* `dropWhile_append_of_beginsLine`: where a run of characters ends.
-/

namespace UsageBoard.Toml

open UsageBoard.Document (Node)

variable {α β : Type} {added cs rest : List Char}

/-! ## Readings -/

/-- What is added to a text begins a line, or it is nothing. -/
def BeginsLine (cs added : List Char) : Prop := added = [] ∨ cs.getLast? = some '\n'

theorem BeginsLine.of_suffix (begins : BeginsLine cs added) (suffix : rest <:+ cs) (there : rest ≠ []) :
    BeginsLine rest added := by
  refine begins.imp_right fun last => ?_
  obtain ⟨front, rfl⟩ := suffix
  rwa [List.getLast?_append_of_ne_nil _ there] at last

theorem BeginsLine.tail {c : Char} (begins : BeginsLine (c :: cs) added) (other : c ≠ '\n') :
    BeginsLine cs added := by
  cases cs with
  | nil => exact .inl (begins.resolve_right (by simp [other]))
  | cons d cs => exact begins.of_suffix (List.suffix_cons _ _) nofun

theorem BeginsLine.of_nil (begins : BeginsLine [] added) : added = [] := begins.resolve_right nofun

/-- What is found at the front of a text is found there when the text goes on, with the same text left
and what was added. -/
def Persists (added cs : List Char) (found later : Option (α × List Char)) : Prop :=
  ∀ value rest, found = some (value, rest) → rest <:+ cs ∧
    (BeginsLine cs added → later = some (value, rest ++ added) ∧ BeginsLine rest added)

/-- The same of what is only passed over, as long as something is left. -/
def Passes (added cs : List Char) (found later : Option (List Char)) : Prop :=
  ∀ rest, found = some rest → rest <:+ cs ∧
    (rest ≠ [] → BeginsLine cs added → later = some (rest ++ added))

theorem persists_none (later : Option (α × List Char)) : Persists added cs none later := nofun

theorem persists_some (value : α) : Persists added cs (some (value, cs)) (some (value, cs ++ added)) := by
  rintro _ _ ⟨⟩
  exact ⟨List.suffix_refl _, fun begins => ⟨rfl, begins⟩⟩

theorem Persists.of_suffix {found later : Option (α × List Char)} (persists : Persists added rest found later)
    (suffix : rest <:+ cs) (begins : BeginsLine cs added → BeginsLine rest added) :
    Persists added cs found later := by
  intro value left read
  obtain ⟨shorter, goes_on⟩ := persists value left read
  exact ⟨shorter.trans suffix, fun h => goes_on (begins h)⟩

theorem Persists.map {found later : Option (α × List Char)} (f : α → β)
    (persists : Persists added cs found later) :
    Persists added cs (found.map fun p => (f p.1, p.2)) (later.map fun p => (f p.1, p.2)) := by
  intro value left read
  obtain ⟨⟨first, left⟩, there, same⟩ := Option.map_eq_some_iff.mp read
  obtain ⟨rfl, rfl⟩ := Prod.mk.inj same
  obtain ⟨suffix, goes_on⟩ := persists first left there
  refine ⟨suffix, fun begins => ?_⟩
  obtain ⟨again, begins⟩ := goes_on begins
  exact ⟨by rw [again]; rfl, begins⟩

theorem Persists.bind {found later : Option (α × List Char)} {next after : α × List Char → Option (β × List Char)}
    (persists : Persists added cs found later)
    (goes_on : ∀ value rest, rest <:+ cs → Persists added rest (next (value, rest)) (after (value, rest ++ added))) :
    Persists added cs (found.bind next) (later.bind after) := by
  intro value left read
  obtain ⟨⟨first, middle⟩, there, read⟩ := Option.bind_eq_some_iff.mp read
  obtain ⟨suffix, first_on⟩ := persists first middle there
  obtain ⟨shorter, last_on⟩ := goes_on first middle suffix value left read
  refine ⟨shorter.trans suffix, fun begins => ?_⟩
  obtain ⟨again, begins⟩ := first_on begins
  rw [again]
  exact last_on begins

theorem Passes.bind {found later : Option (List Char)} {next after : List Char → Option (β × List Char)}
    (passes : Passes added cs found later) (nothing : next [] = none)
    (goes_on : ∀ rest, rest <:+ cs → Persists added rest (next rest) (after (rest ++ added))) :
    Persists added cs (found.bind next) (later.bind after) := by
  intro value left read
  obtain ⟨middle, there, read⟩ := Option.bind_eq_some_iff.mp read
  obtain ⟨suffix, first_on⟩ := passes middle there
  obtain ⟨shorter, last_on⟩ := goes_on middle suffix value left read
  have nonempty : middle ≠ [] := by
    rintro rfl
    rw [nothing] at read
    cases read
  refine ⟨shorter.trans suffix, fun begins => ?_⟩
  rw [first_on nonempty begins]
  exact last_on (begins.of_suffix suffix nonempty)

theorem Persists.cons {c : Char} {found later : Option (α × List Char)}
    (persists : Persists added cs found later) (nothing : cs = [] → found = none) :
    Persists added (c :: cs) found later := by
  intro value left read
  have nonempty : cs ≠ [] := by
    intro empty
    rw [nothing empty] at read
    cases read
  have suffix : cs <:+ c :: cs := List.suffix_cons _ _
  exact persists.of_suffix suffix (fun begins => begins.of_suffix suffix nonempty) value left read

/-- Goes one of two ways by the first character of a text. -/
def onHead (c : Char) (yes no : List Char → β) : List Char → β
  | [] => no []
  | d :: rest => if d = c then yes rest else no (d :: rest)

theorem onHead_self (c : Char) (yes no : List Char → β) (rest : List Char) :
    onHead c yes no (c :: rest) = yes rest := if_pos rfl

theorem onHead_of_ne {c d : Char} (other : d ≠ c) (yes no : List Char → β) (rest : List Char) :
    onHead c yes no (d :: rest) = no (d :: rest) := if_neg other

theorem onHead_of_not {c : Char} (other : ∀ rest, cs ≠ c :: rest) (yes no : List Char → β) :
    onHead c yes no cs = no cs := by
  cases cs with
  | nil => rfl
  | cons d cs => exact onHead_of_ne (fun same => other cs (by rw [same])) yes no cs

theorem Persists.onHead {c : Char} (other : c ≠ '\n')
    {yes no further none_further : List Char → Option (β × List Char)}
    (begins : ∀ rest, cs = c :: rest → Persists added rest (yes rest) (further (rest ++ added)))
    (else_ : Persists added cs (no cs) (none_further (cs ++ added))) :
    Persists added cs (onHead c yes no cs) (onHead c further none_further (cs ++ added)) := by
  cases cs with
  | nil =>
      intro value left read
      obtain ⟨suffix, goes_on⟩ := else_ value left read
      refine ⟨suffix, fun h => ?_⟩
      obtain rfl := h.of_nil
      exact goes_on h
  | cons d cs =>
      rw [List.cons_append]
      by_cases hd : d = c
      · subst hd
        rw [onHead_self, onHead_self]
        exact (begins cs rfl).of_suffix (List.suffix_cons _ _) fun h => h.tail other
      · rw [onHead_of_ne hd, onHead_of_ne hd]
        exact else_

theorem Persists.ite {test again : Bool} {yes no further otherwise : Option (α × List Char)}
    (same : BeginsLine cs added → again = test) (begins : Persists added cs yes further)
    (else_ : Persists added cs no otherwise) :
    Persists added cs (if test then yes else no) (if again then further else otherwise) := by
  intro value left read
  cases test with
  | true =>
      obtain ⟨suffix, goes_on⟩ := begins value left read
      refine ⟨suffix, fun h => ?_⟩
      rw [same h]
      exact goes_on h
  | false =>
      obtain ⟨suffix, goes_on⟩ := else_ value left read
      refine ⟨suffix, fun h => ?_⟩
      rw [same h]
      exact goes_on h

theorem Persists.ite_head {p : Char → Bool} {yes no further otherwise : Option (α × List Char)}
    (begins : Persists added cs yes further) (else_ : Persists added cs no otherwise) :
    Persists added cs (if cs.head?.any p then yes else no)
      (if (cs ++ added).head?.any p then further else otherwise) := by
  refine Persists.ite (fun h => ?_) begins else_
  cases cs with
  | nil => rw [h.of_nil]; rfl
  | cons c cs => rfl

theorem Persists.of_option {γ : Type} (value? : Option γ) {next after : γ → Option (β × List Char)}
    (goes_on : ∀ value, Persists added cs (next value) (after value)) :
    Persists added cs (value?.bind next) (value?.bind after) := by
  cases value? with
  | none => exact persists_none _
  | some value => exact goes_on value

/-! ## Runs of characters -/

/-- A run of characters that are no line feeds ends where it ends when more lines follow. -/
theorem dropWhile_append_of_beginsLine {p : Char → Bool} (stops : p '\n' = false)
    (begins : BeginsLine cs added) :
    (cs ++ added).takeWhile p = cs.takeWhile p ∧ (cs ++ added).dropWhile p = cs.dropWhile p ++ added ∧
      BeginsLine (cs.dropWhile p) added := by
  induction cs with
  | nil => simp [begins.of_nil, BeginsLine]
  | cons c cs ih =>
      by_cases hc : p c
      · have other : c ≠ '\n' := by
          rintro rfl
          simp [stops] at hc
        simpa [hc] using ih (begins.tail other)
      · simpa [hc] using begins

theorem Persists.run {p : Char → Bool} (stops : p '\n' = false)
    (next after : List Char → List Char → Option (β × List Char))
    (goes_on : ∀ run rest, rest <:+ cs → Persists added rest (next run rest) (after run (rest ++ added))) :
    Persists added cs (next (cs.takeWhile p) (cs.dropWhile p))
      (after ((cs ++ added).takeWhile p) ((cs ++ added).dropWhile p)) := by
  have suffix : cs.dropWhile p <:+ cs := List.dropWhile_suffix _
  intro value left read
  obtain ⟨shorter, further⟩ := goes_on _ _ suffix value left read
  refine ⟨shorter.trans suffix, fun begins => ?_⟩
  obtain ⟨run, same, begins⟩ := dropWhile_append_of_beginsLine stops begins
  rw [run, same]
  exact further begins

/-- Reads on after blanks. -/
def onBlanks (next : List Char → β) (cs : List Char) : β := next (skipBlanks cs)

theorem Persists.onBlanks {next after : List Char → Option (β × List Char)}
    (goes_on : ∀ rest, rest <:+ cs → Persists added rest (next rest) (after (rest ++ added))) :
    Persists added cs (onBlanks next cs) (onBlanks after (cs ++ added)) :=
  Persists.run rfl (fun _ => next) (fun _ => after) fun _ => goes_on

end UsageBoard.Toml
