import UsageBoard.Proofs.Toml.Values

/-!
# Lines of TOML texts that go on

A text is read line by line, and what a line does depends on the lines before it only by what they have
reached: the keys of the last header, and the root table.

## Main statements

* `persists_lineFrom?`: a line does the same when more lines follow.
* `reach?_append`: what is added to a text is read from what the text has reached.
-/

namespace UsageBoard.Toml

open UsageBoard.Document (Node)

variable {added cs rest : List Char}

/-! ## Ends of lines -/

/-- What follows a line break, or nothing at the end of a text. -/
def afterEnd? (cs : List Char) : Option (List Char) := if cs = [] then some [] else afterBreak? cs

theorem afterLine?_eq (cs : List Char) :
    afterLine? cs =
      onBlanks (onHead '#' (fun comment => afterEnd? (comment.dropWhile isPlain)) afterEnd?) cs := by
  rw [afterLine?, onBlanks]
  simp only [List.isEmpty_iff]
  split
  · rename_i comment found
    rw [found, onHead_self]
    rfl
  · rename_i other
    rw [onHead_of_not other]
    rfl

theorem afterEnd?_append (begins : BeginsLine cs added) :
    afterEnd? (cs ++ added) = (afterEnd? cs).map (· ++ added) := by
  by_cases empty : cs = []
  · subst empty
    obtain rfl := begins.of_nil
    rfl
  · rw [afterEnd?, afterEnd?, if_neg empty, if_neg fun both => empty (List.append_eq_nil_iff.mp both).1]
    cases broken : afterBreak? cs with
    | none => exact afterBreak?_append_of_none begins broken
    | some rest => exact afterBreak?_append broken

theorem afterLine?_append (begins : BeginsLine cs added) :
    afterLine? (cs ++ added) = (afterLine? cs).map (· ++ added) := by
  obtain ⟨-, front, begins⟩ := dropWhile_append_of_beginsLine (p := isBlank) rfl begins
  rw [afterLine?_eq, afterLine?_eq, onBlanks, onBlanks, skipBlanks, skipBlanks, front]
  cases found : cs.dropWhile isBlank with
  | nil =>
      rw [found] at begins
      obtain rfl := begins.of_nil
      rfl
  | cons c comment =>
      rw [found] at begins
      by_cases mark : c = '#'
      · subst mark
        obtain ⟨-, back, begins⟩ :=
          dropWhile_append_of_beginsLine (p := isPlain) (by decide) (begins.tail (by decide))
        rw [List.cons_append, onHead_self, onHead_self, back, afterEnd?_append begins]
      · rw [List.cons_append, onHead_of_ne mark, onHead_of_ne mark, ← List.cons_append,
          afterEnd?_append begins]

/-- The rest of a text, which is shorter unless nothing is left of the text. -/
def Follows (cs rest : List Char) : Prop := rest <:+ cs ∧ (cs ≠ [] → rest.length < cs.length)

theorem Follows.of_suffix {later : List Char} (follows : Follows cs rest) (suffix : cs <:+ later)
    (there : later ≠ []) : rest <:+ later ∧ rest.length < later.length := by
  refine ⟨follows.1.trans suffix, ?_⟩
  by_cases empty : cs = []
  · obtain rfl := List.suffix_nil.mp (empty ▸ follows.1)
    exact List.length_pos_iff.mpr there
  · exact (follows.2 empty).trans_le suffix.length_le

theorem follows_of_afterEnd? (ended : afterEnd? cs = some rest) : Follows cs rest := by
  rw [afterEnd?] at ended
  split at ended
  · rename_i empty
    obtain rfl := Option.some.inj ended
    exact ⟨List.nil_suffix, fun there => absurd empty there⟩
  · refine ⟨suffix_of_afterBreak? ended, fun _ => ?_⟩
    unfold afterBreak? at ended
    split at ended <;> cases ended <;> simp only [List.length_cons] <;> omega

/-- The end of a line takes something from a text, unless nothing is left of it. -/
theorem follows_of_afterLine? (ended : afterLine? cs = some rest) : Follows cs rest := by
  have suffix : skipBlanks cs <:+ cs := List.dropWhile_suffix _
  rw [afterLine?_eq, onBlanks] at ended
  have inner : rest <:+ skipBlanks cs ∧ (skipBlanks cs ≠ [] → rest.length < (skipBlanks cs).length) := by
    cases found : skipBlanks cs with
    | nil =>
        rw [found] at ended
        obtain rfl := Option.some.inj ended
        exact ⟨List.nil_suffix, fun there => absurd rfl there⟩
    | cons c comment =>
        rw [found] at ended
        by_cases mark : c = '#'
        · subst mark
          rw [onHead_self] at ended
          have back : comment.dropWhile isPlain <:+ '#' :: comment :=
            (List.dropWhile_suffix _).trans (List.suffix_cons _ _)
          have after := (follows_of_afterEnd? ended).of_suffix back (List.cons_ne_nil _ _)
          exact ⟨after.1, fun _ => after.2⟩
        · rw [onHead_of_ne mark] at ended
          exact follows_of_afterEnd? ended
  exact ⟨inner.1.trans suffix, fun there => (Follows.of_suffix inner suffix there).2⟩

/-! ## A line -/

/-- What the lines of a text have reached: the keys of the last header, and the root table. -/
abbrev Reached := List String × Members

/-- Opens the table that a header names. -/
def openAt (change : String → Members → Option Members) (root : Members) (key : Key) (cs : List Char) :
    Option (Reached × List Char) :=
  (root.within (change key.2) key.1).bind fun root => some ((key.1 ++ [key.2], root), cs)

/-- Assigns the value after an equality sign to a key of the open table. -/
def assignAt (fuel : Nat) (reached : Reached) (key : Key) : List Char → Option (Reached × List Char) :=
  onBlanks fun cs => (readValue? fuel nestingLimit cs).bind fun value =>
    (reached.2.within (Members.assign value.1 key.1 key.2) reached.1).bind fun root =>
      some ((reached.1, root), value.2)

/-- Reads a line that is not blank up to its end, before which a comment may stand. -/
def lineFrom? (fuel : Nat) (reached : Reached) : List Char → Option (Reached × List Char) :=
  onHead '['
    (onHead '['
      (fun cs => (readKey? fuel cs).bind fun key =>
        onHead ']' (onHead ']' (openAt Members.defineElement reached.2 key.1) fun _ => none)
          (fun _ => none) key.2)
      (fun cs => (readKey? fuel cs).bind fun key =>
        onHead ']' (openAt Members.define reached.2 key.1) (fun _ => none) key.2))
    (fun cs =>
      if (afterLine? cs).isSome then some (reached, cs)
      else (readKey? fuel cs).bind fun key =>
        onHead '=' (assignAt fuel reached key.1) (fun _ => none) key.2)

theorem readLines?_succ (fuel : Nat) (reached : Reached) (cs : List Char) :
    readLines? (fuel + 1) reached.1 reached.2 cs =
      if skipBlanks cs = [] then some reached.2
      else (lineFrom? fuel reached (skipBlanks cs)).bind fun next =>
        (afterLine? next.2).bind (readLines? fuel next.1.1 next.1.2) := by
  rw [readLines?]
  split
  · rename_i empty
    rw [if_pos empty]
  · rename_i rest found
    rw [found, if_neg nofun, lineFrom?, onHead_self, onHead_self, Option.bind_assoc]
    refine congrArg _ (funext fun key => ?_)
    simp only [← after?_bind, Option.bind_assoc, openAt, Option.bind_some]
    refine congrArg _ (funext fun middle => congrArg _ (funext fun back => ?_))
    exact Option.bind_comm _ _
  · rename_i rest other found
    have table : ∀ more, rest ≠ '[' :: more := fun more same => other more (by rw [same])
    rw [found, if_neg nofun, lineFrom?, onHead_self, onHead_of_not table, Option.bind_assoc]
    refine congrArg _ (funext fun key => ?_)
    simp only [← after?_bind, Option.bind_assoc, openAt, Option.bind_some]
    refine congrArg _ (funext fun back => ?_)
    exact Option.bind_comm _ _
  · rename_i c rest _ other found
    rw [found, if_neg nofun, lineFrom?, onHead_of_ne other]
    split
    · rename_i ended
      rw [ended, if_pos Option.isSome_some, Option.bind_some]
      dsimp only
      rw [ended]
      rfl
    · rename_i ended
      rw [ended, if_neg nofun, Option.bind_assoc]
      refine congrArg _ (funext fun key => ?_)
      simp only [← after?_bind, Option.bind_assoc, assignAt, onBlanks, Option.bind_some]
      rfl

theorem persists_openAt (change : String → Members → Option Members) (root : Members) (key : Key)
    (cs : List Char) :
    Persists added cs (openAt change root key cs) (openAt change root key (cs ++ added)) :=
  Persists.of_option _ fun _ => persists_some _

theorem persists_assignAt {fuel more : Nat} (reached : Reached) (key : Key)
    (enough : 2 * cs.length < fuel) (enough_more : 2 * (cs.length + added.length) < more) :
    Persists added cs (assignAt fuel reached key cs) (assignAt more reached key (cs ++ added)) := by
  refine Persists.onBlanks fun start hstart => ?_
  have shorter := hstart.length_le
  refine ((readsOn fuel).value more nestingLimit start (by omega) (by omega)).bind fun value rest _ => ?_
  exact Persists.of_option _ fun _ => persists_some _

theorem persists_lineFrom? {fuel more : Nat} (reached : Reached) (enough : 2 * cs.length < fuel)
    (enough_more : 2 * (cs.length + added.length) < more) :
    Persists added cs (lineFrom? fuel reached cs) (lineFrom? more reached (cs ++ added)) := by
  refine Persists.onHead (by decide) (fun header same => ?_) ?_
  · rw [same, List.length_cons] at enough enough_more
    refine Persists.onHead (by decide) (fun tables same => ?_) ?_
    · rw [same, List.length_cons] at enough enough_more
      refine (persists_readKey? (by omega) (by omega)).bind fun key rest _ => ?_
      refine Persists.onHead (by decide) (fun rest _ => ?_) (persists_none _)
      exact Persists.onHead (by decide) (fun rest _ => persists_openAt _ _ _ rest) (persists_none _)
    · refine (persists_readKey? (by omega) (by omega)).bind fun key rest _ => ?_
      exact Persists.onHead (by decide) (fun rest _ => persists_openAt _ _ _ rest) (persists_none _)
  · refine Persists.ite (fun begins => ?_) (persists_some reached) ?_
    · rw [afterLine?_append begins, Option.isSome_map]
    · refine (persists_readKey? (by omega) (by omega)).bind fun key rest hrest => ?_
      refine Persists.onHead (by decide) (fun given same => ?_) (persists_none _)
      have shorter := hrest.length_le
      rw [same, List.length_cons] at shorter
      exact persists_assignAt reached key (by omega) (by omega)

/-- Reads a line with its end. -/
def wholeLine? (fuel : Nat) (reached : Reached) (cs : List Char) : Option (Reached × List Char) :=
  (lineFrom? fuel reached (skipBlanks cs)).bind fun next =>
    (afterLine? next.2).map fun rest => (next.1, rest)

theorem wholeLine?_append {fuel : Nat} (more : Nat) {reached next : Reached} (enough : 2 * cs.length < fuel)
    (enough_more : 2 * (cs.length + added.length) < more) (begins : BeginsLine cs added) (there : cs ≠ [])
    (read : wholeLine? fuel reached cs = some (next, rest)) :
    wholeLine? more reached (cs ++ added) = some (next, rest ++ added) ∧ rest.length < cs.length ∧
      (rest ≠ [] → BeginsLine rest added) := by
  have suffix : skipBlanks cs <:+ cs := List.dropWhile_suffix _
  have shorter := suffix.length_le
  obtain ⟨-, front, from_front⟩ := dropWhile_append_of_beginsLine (p := isBlank) rfl begins
  obtain ⟨⟨_, middle⟩, line, read⟩ := Option.bind_eq_some_iff.mp read
  obtain ⟨_, ended, same⟩ := Option.map_eq_some_iff.mp read
  obtain ⟨rfl, rfl⟩ := Prod.mk.inj same
  have persists : Persists added (skipBlanks cs) (lineFrom? fuel reached (skipBlanks cs))
      (lineFrom? more reached (skipBlanks cs ++ added)) :=
    persists_lineFrom? reached (by omega) (by omega)
  obtain ⟨inside, line_on⟩ := persists _ middle line
  obtain ⟨line_on, from_middle⟩ := line_on from_front
  have left := (follows_of_afterLine? ended).of_suffix (inside.trans suffix) there
  refine ⟨?_, left.2, fun nonempty => begins.of_suffix left.1 nonempty⟩
  rw [wholeLine?, skipBlanks, front, ← skipBlanks, line_on, Option.bind_some]
  dsimp only
  rw [afterLine?_append from_middle, ended]
  rfl

/-! ## Lines -/

/-- What the lines of a text reach from what was reached before them. -/
def reachFrom? : (fuel : Nat) → Reached → List Char → Option Reached
  | 0, _, _ => none
  | fuel + 1, reached, cs =>
      if skipBlanks cs = [] then some reached
      else (wholeLine? fuel reached cs).bind fun next => reachFrom? fuel next.1 next.2

theorem readLines?_eq (fuel : Nat) (reached : Reached) (cs : List Char) :
    readLines? fuel reached.1 reached.2 cs = (reachFrom? fuel reached cs).map Prod.snd := by
  induction fuel generalizing reached cs with
  | zero => rfl
  | succ fuel ih =>
      rw [readLines?_succ, reachFrom?, apply_ite (Option.map Prod.snd), wholeLine?, Option.map_bind,
        Option.bind_assoc]
      refine if_congr Iff.rfl rfl (congrArg _ (funext fun next => ?_))
      rw [Option.bind_map]
      exact congrArg _ (funext fun rest => ih next.1 rest)

theorem reachFrom?_of_blank {fuel : Nat} (blank : skipBlanks cs = []) (reached : Reached) :
    reachFrom? (fuel + 1) reached cs = some reached := if_pos blank

/-- What is added to a text is read from what the text has reached, whatever the fuel. -/
theorem reachFrom?_append {fuel : Nat} (more : Nat) {reached later : Reached} (enough : 2 * cs.length + 1 < fuel)
    (enough_more : 2 * (cs.length + added.length) + 1 < more) (begins : cs ≠ [] → BeginsLine cs added)
    (read : reachFrom? fuel reached cs = some later) :
    ∃ left, 2 * added.length + 1 < left ∧
      reachFrom? more reached (cs ++ added) = reachFrom? left later added := by
  induction fuel generalizing cs more reached with
  | zero => cases read
  | succ fuel ih =>
      obtain ⟨more, rfl⟩ := Nat.exists_eq_succ_of_ne_zero (show more ≠ 0 by omega)
      by_cases empty : cs = []
      · subst empty
        obtain rfl := Option.some.inj ((reachFrom?_of_blank rfl reached).symm.trans read)
        exact ⟨more + 1, by simpa using enough_more, rfl⟩
      have begins := begins empty
      obtain ⟨-, front, from_front⟩ := dropWhile_append_of_beginsLine (p := isBlank) rfl begins
      rw [← skipBlanks, ← skipBlanks] at front
      by_cases blank : skipBlanks cs = []
      · rw [← skipBlanks, blank] at from_front
        obtain rfl := from_front.of_nil
        obtain rfl := Option.some.inj ((reachFrom?_of_blank blank reached).symm.trans read)
        refine ⟨more + 1, by omega, ?_⟩
        rw [List.append_nil, reachFrom?_of_blank blank, reachFrom?_of_blank rfl]
      · rw [reachFrom?, if_neg blank] at read
        obtain ⟨⟨next, rest⟩, line, read⟩ := Option.bind_eq_some_iff.mp read
        obtain ⟨line, shorter, begins⟩ :=
          wholeLine?_append more (by omega) (by omega) begins empty line
        have goes_on : skipBlanks (cs ++ added) ≠ [] := by
          rw [front]
          exact fun both => blank (List.append_eq_nil_iff.mp both).1
        obtain ⟨left, enough_left, same⟩ := ih more (by omega) (by omega) begins read
        refine ⟨left, enough_left, ?_⟩
        rw [reachFrom?, if_neg goes_on, line]
        exact same

/-- The fuel makes no difference as long as there is enough of it. -/
theorem reachFrom?_fuel {fuel more : Nat} (enough : 2 * cs.length + 1 < fuel)
    (enough_more : 2 * cs.length + 1 < more) (reached : Reached) :
    reachFrom? fuel reached cs = reachFrom? more reached cs := by
  have keeps {fuel more : Nat} (enough : 2 * cs.length + 1 < fuel) (enough_more : 2 * cs.length + 1 < more)
      (later : Reached) (read : reachFrom? fuel reached cs = some later) :
      reachFrom? more reached cs = some later := by
    have begins : cs ≠ [] → BeginsLine cs [] := fun _ => .inl rfl
    have with_nothing : 2 * (cs.length + ([] : List Char).length) + 1 < more := enough_more
    obtain ⟨left, some_left, same⟩ := reachFrom?_append more enough with_nothing begins read
    obtain ⟨left, rfl⟩ := Nat.exists_eq_succ_of_ne_zero (show left ≠ 0 by omega)
    rwa [List.append_nil, reachFrom?_of_blank rfl] at same
  refine Option.ext fun later => ⟨?_, ?_⟩
  · exact keeps enough enough_more later
  · exact keeps enough_more enough later

/-! ## Texts -/

/-- What a text reaches from what was reached before it. -/
def reach? (reached : Reached) (cs : List Char) : Option Reached :=
  reachFrom? (2 * cs.length + 2) reached cs

theorem reach?_append {reached later : Reached} (begins : BeginsLine cs added)
    (read : reach? reached cs = some later) : reach? reached (cs ++ added) = reach? later added := by
  obtain ⟨left, enough, same⟩ :=
    reachFrom?_append (2 * (cs ++ added).length + 2) (by omega) (by simp) (fun _ => begins) read
  exact same.trans (reachFrom?_fuel enough (by omega) later)

theorem reach?_line {reached next : Reached} (there : skipBlanks cs ≠ [])
    (read : wholeLine? (2 * cs.length + 1) reached cs = some (next, rest)) (shorter : rest.length < cs.length) :
    reach? reached cs = reach? next rest := by
  have enough : reachFrom? (2 * cs.length + 1) next rest = reach? next rest :=
    reachFrom?_fuel (by omega) (by omega) next
  rw [reach?, reachFrom?, if_neg there, read]
  exact enough

/-- The characters of a text without a byte order mark at its front. -/
def withoutMark : List Char → List Char
  | c :: rest => if c = byteOrderMark then rest else c :: rest
  | [] => []

theorem withoutMark_append (there : cs ≠ []) (added : List Char) :
    withoutMark (cs ++ added) = withoutMark cs ++ added := by
  cases cs with
  | nil => exact absurd rfl there
  | cons c cs =>
      rw [List.cons_append, withoutMark, withoutMark]
      split <;> rfl

theorem getLast?_withoutMark (ended : cs.getLast? = some '\n') :
    (withoutMark cs).getLast? = some '\n' := by
  cases cs with
  | nil => cases ended
  | cons c cs =>
      rw [withoutMark]
      split
      · rename_i mark
        cases cs with
        | nil =>
            rw [mark] at ended
            exact absurd ended (by decide)
        | cons d cs => exact ended
      · exact ended

theorem read?_eq (text : String) :
    read? text = (reach? ([], []) (withoutMark text.toList)).map fun reached => reached.2.toNode := by
  have whole : read? text = (readLines? (2 * (withoutMark text.toList).length + 2) [] []
      (withoutMark text.toList)).map Members.toNode := by
    rw [read?]
    cases text.toList <;> rfl
  have lines := readLines?_eq (2 * (withoutMark text.toList).length + 2) ([], []) (withoutMark text.toList)
  rw [whole, lines, Option.map_map]
  rfl

end UsageBoard.Toml
