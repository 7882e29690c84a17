import UsageBoard.Proofs.Toml.Strings

/-!
# Values in TOML texts that go on

Keys and values are read with as much fuel as the text is long, so that a longer text is read with more
of it.  Main statement: with fuel for the text, a value is the same when more lines follow, and the
same with any other fuel that is enough (`readsOn`).
-/

namespace UsageBoard.Toml

open UsageBoard.Document (Node)

variable {added cs rest : List Char}

/-! ## Keys -/

/-- A part of a key by the run of its characters; without any it is a string. -/
def keyPart? (run rest : List Char) : Option (String × List Char) :=
  if run = [] then readLineString? rest else some (String.ofList run, rest)

theorem readKeyPart?_eq (cs : List Char) :
    readKeyPart? cs = keyPart? (cs.takeWhile isBareKeyChar) (cs.dropWhile isBareKeyChar) := by
  rw [readKeyPart?, keyPart?]
  split
  · rename_i empty
    have whole := List.takeWhile_append_dropWhile (p := isBareKeyChar) (l := cs)
    rw [empty, List.nil_append] at whole
    rw [if_pos empty, whole]
  · rename_i nonempty
    rw [if_neg nonempty]

theorem persists_readKeyPart? (cs : List Char) :
    Persists added cs (readKeyPart? cs) (readKeyPart? (cs ++ added)) := by
  rw [readKeyPart?_eq, readKeyPart?_eq]
  refine Persists.run (p := isBareKeyChar) (by decide) keyPart? keyPart? fun run rest _ => ?_
  unfold keyPart?
  split
  · exact persists_readLineString? rest
  · exact persists_some _

theorem readKey?_succ (fuel : Nat) (cs : List Char) :
    readKey? (fuel + 1) cs =
      onBlanks (fun cs => (readKeyPart? cs).bind fun first =>
        onBlanks (onHead '.'
          (fun rest => (readKey? fuel rest).map fun others =>
            ((first.1 :: others.1.1, others.1.2), others.2))
          fun rest => some (([], first.1), rest)) first.2) cs := by
  rw [readKey?]
  refine congrArg _ (funext fun first => ?_)
  dsimp only
  rw [onBlanks]
  split
  · rename_i rest found
    rw [found, onHead_self]
    cases readKey? fuel rest <;> rfl
  · rename_i other
    rw [onHead_of_not other]
    rfl

/-- A key is the same when more lines follow, whatever the fuel. -/
theorem persists_readKey? {fuel more : Nat} (enough : cs.length < fuel)
    (enough_more : cs.length + added.length < more) :
    Persists added cs (readKey? fuel cs) (readKey? more (cs ++ added)) := by
  induction fuel generalizing cs more with
  | zero => omega
  | succ fuel ih =>
      obtain ⟨more, rfl⟩ := Nat.exists_eq_succ_of_ne_zero (show more ≠ 0 by omega)
      rw [readKey?_succ, readKey?_succ]
      refine Persists.onBlanks fun front hfront => (persists_readKeyPart? front).bind fun part middle hmiddle => ?_
      refine Persists.onBlanks fun back hback => Persists.onHead (by decide) (fun last same => ?_) (persists_some _)
      have shorter : last.length < cs.length := by
        have := ((hback.trans hmiddle).trans hfront).length_le
        rw [same, List.length_cons] at this
        omega
      have inner : Persists added last (readKey? fuel last) (readKey? more (last ++ added)) :=
        ih (by omega) (by omega)
      exact inner.map fun others => (part :: others.1, others.2)

/-! ## Gaps between parts -/

theorem Passes.cons {c : Char} {found later : Option (List Char)} (passes : Passes added cs found later) :
    Passes added (c :: cs) found later := by
  intro left read
  obtain ⟨suffix, goes_on⟩ := passes left read
  refine ⟨suffix.trans (List.suffix_cons _ _), fun there begins => goes_on there ?_⟩
  have nonempty : cs ≠ [] := by
    rintro rfl
    exact there (List.suffix_nil.mp suffix)
  exact begins.of_suffix (List.suffix_cons _ _) nonempty

theorem passes_skipGaps (comment : Bool) (cs : List Char) :
    Passes added cs (skipGaps comment cs) (skipGaps comment (cs ++ added)) := by
  fun_induction skipGaps comment cs with
  | case1 comment => exact fun rest read => ⟨(Option.some.inj read) ▸ List.suffix_refl _, fun there =>
      absurd (Option.some.inj read).symm there⟩
  | case2 comment rest ih =>
      rw [List.cons_append, skipGaps, if_pos rfl]
      exact ih.cons
  | case3 comment rest feed _ ih =>
      have again : (rest ++ added).head? = some '\n' := by simp [List.head?_append, feed]
      rw [List.cons_append, skipGaps, if_neg (by decide), if_pos rfl, if_pos again]
      exact ih.cons
  | case4 => nofun
  | case5 c rest feed ret plain ih =>
      rw [List.cons_append, skipGaps, if_neg feed, if_neg ret, if_pos rfl, if_pos plain]
      exact ih.cons
  | case6 => nofun
  | case7 comment rest text _ _ ih =>
      rw [List.cons_append, skipGaps, if_neg (by decide), if_neg (by decide), if_neg text, if_pos rfl]
      exact ih.cons
  | case8 comment c rest feed ret text mark blank ih =>
      rw [List.cons_append, skipGaps, if_neg feed, if_neg ret, if_neg text, if_neg mark, if_pos blank]
      exact ih.cons
  | case9 comment c rest feed ret text mark other =>
      rw [List.cons_append, skipGaps, if_neg feed, if_neg ret, if_neg text, if_neg mark, if_neg other]
      rintro _ ⟨⟩
      exact ⟨List.suffix_refl _, fun _ _ => rfl⟩

theorem after?_bind {β : Type} (c : Char) (next : List Char → Option β) (cs : List Char) :
    (after? c cs).bind next = onHead c next (fun _ => none) cs := by
  cases cs with
  | nil => rfl
  | cons d rest =>
      rw [after?]
      by_cases hd : d = c
      · rw [if_pos hd, hd, onHead_self]
        rfl
      · rw [if_neg hd, onHead_of_ne hd]
        rfl

/-! ## Scalars -/

theorem isSome_field?_append (begins : BeginsLine cs added) (low high : Nat) :
    (field? 2 low high (cs ++ added)).isSome = (field? 2 low high cs).isSome := by
  rcases begins with rfl | last
  · rw [List.append_nil]
  · match cs with
    | [] => cases last
    | [c] =>
        obtain rfl : c = '\n' := by simpa using last
        simp [field?]
    | c :: d :: cs =>
        rw [field?, field?, apply_ite Option.isSome, apply_ite Option.isSome]
        rfl

/-- A run of the characters of scalars, and what follows it: after a date a space and a time may go on
with it. -/
def scalarAfter (run rest : List Char) : Option (List Char × List Char) :=
  if afterDate? run = some [] then
    onHead ' '
      (fun time =>
        if (field? 2 0 99 time).isSome then
          some (run ++ ' ' :: time.takeWhile isScalarChar, time.dropWhile isScalarChar)
        else some (run, ' ' :: time))
      (fun rest => some (run, rest)) rest
  else some (run, rest)

theorem some_scalarRun (cs : List Char) :
    some (scalarRun cs) = scalarAfter (cs.takeWhile isScalarChar) (cs.dropWhile isScalarChar) := by
  rw [scalarRun, scalarAfter]
  split
  · rename_i date space
    rw [if_pos date, space, onHead_self]
    split <;> rfl
  · rename_i other
    split
    · rename_i date
      rw [onHead_of_not fun rest space => other rest date space]
    · rfl

/-- After a date, whether a time follows is the same when more lines follow. -/
theorem persists_timeAfter (run time : List Char) :
    Persists added (' ' :: time)
      (if (field? 2 0 99 time).isSome then
        some (run ++ ' ' :: time.takeWhile isScalarChar, time.dropWhile isScalarChar)
      else some (run, ' ' :: time))
      (if (field? 2 0 99 (time ++ added)).isSome then
        some (run ++ ' ' :: (time ++ added).takeWhile isScalarChar, (time ++ added).dropWhile isScalarChar)
      else some (run, ' ' :: (time ++ added))) := by
  have tail (begins : BeginsLine (' ' :: time) added) : BeginsLine time added := begins.tail (by decide)
  have longer : Persists added time
      (some (run ++ ' ' :: time.takeWhile isScalarChar, time.dropWhile isScalarChar))
      (some (run ++ ' ' :: (time ++ added).takeWhile isScalarChar, (time ++ added).dropWhile isScalarChar)) :=
    Persists.run (by decide) (fun more rest => some (run ++ ' ' :: more, rest))
      (fun more rest => some (run ++ ' ' :: more, rest)) fun _ _ _ => persists_some _
  exact Persists.ite (fun begins => isSome_field?_append (tail begins) 0 99)
    (longer.of_suffix (List.suffix_cons _ _) tail) (persists_some run)

theorem persists_scalarAfter (run cs : List Char) :
    Persists added cs (scalarAfter run cs) (scalarAfter run (cs ++ added)) := by
  unfold scalarAfter
  split
  · cases cs with
    | nil =>
        rintro _ _ ⟨⟩
        refine ⟨List.suffix_refl _, fun begins => ?_⟩
        obtain rfl := begins.of_nil
        exact ⟨rfl, begins⟩
    | cons c time =>
        rw [List.cons_append]
        by_cases space : c = ' '
        · subst space
          rw [onHead_self, onHead_self]
          exact persists_timeAfter run time
        · rw [onHead_of_ne space, onHead_of_ne space]
          exact persists_some run
  · exact persists_some run

theorem readScalar?_eq (cs : List Char) :
    readScalar? cs =
      (scalarAfter (cs.takeWhile isScalarChar) (cs.dropWhile isScalarChar)).bind fun p =>
        (scalarNode? p.1).map fun node => (node, p.2) := by
  rw [← some_scalarRun]
  rfl

theorem persists_readScalar? (cs : List Char) :
    Persists added cs (readScalar? cs) (readScalar? (cs ++ added)) := by
  rw [readScalar?_eq, readScalar?_eq]
  have parts : Persists added cs (scalarAfter (cs.takeWhile isScalarChar) (cs.dropWhile isScalarChar))
      (scalarAfter ((cs ++ added).takeWhile isScalarChar) ((cs ++ added).dropWhile isScalarChar)) :=
    Persists.run (p := isScalarChar) (by decide) scalarAfter scalarAfter fun run rest _ =>
      persists_scalarAfter run rest
  refine parts.bind fun run rest _ => ?_
  cases scalarNode? run with
  | none => exact persists_none _
  | some node => exact persists_some node

/-! ## Values -/

def isQuote (c : Char) : Bool := c == '"' || c == '\''

theorem readValue?_succ (fuel levels : Nat) (cs : List Char) :
    readValue? (fuel + 1) levels cs =
      if cs.head?.any isQuote then (readString? cs).map fun p => (.text p.1, p.2)
      else onHead '['
        (fun rest => if levels = 0 then none
          else (readItems? fuel (levels - 1) rest).map fun p => (.list p.1, p.2))
        (onHead '\x7b'
          (fun rest => if levels = 0 then none
            else (readMembers? fuel (levels - 1) [] rest).map fun p => (p.1.toNode, p.2))
          readScalar?) cs := by
  cases cs with
  | nil => rfl
  | cons c rest =>
      by_cases double : c = '"'
      · subst double
        rfl
      by_cases single : c = '\''
      · subst single
        rfl
      have other : ¬(c :: rest).head?.any isQuote := by simp [isQuote, double, single]
      rw [if_neg other]
      by_cases list : c = '['
      · subst list
        rw [onHead_self, readValue?]
      by_cases table : c = '\x7b'
      · subst table
        rw [onHead_of_ne list, onHead_self, readValue?]
      rw [onHead_of_ne list, onHead_of_ne table,
        readValue?.eq_6 _ _ _ (by simpa using double) (by simpa using single) (by simpa using list)
          (by simpa using table)]

theorem readItems?_succ (fuel levels : Nat) (cs : List Char) :
    readItems? (fuel + 1) levels cs =
      (skipGaps false cs).bind (onHead ']' (fun rest => some ([], rest)) fun cs =>
        (readValue? fuel levels cs).bind fun item =>
          (skipGaps false item.2).bind (onHead ','
            (fun rest => (readItems? fuel levels rest).map fun others => (item.1 :: others.1, others.2))
            (onHead ']' (fun rest => some ([item.1], rest)) fun _ => none))) := by
  rw [readItems?]
  refine congrArg _ (funext fun front => ?_)
  split
  · rw [onHead_self]
    rfl
  · rename_i more
    rw [onHead_of_not more]
    refine congrArg _ (funext fun ⟨item, rest⟩ => ?_)
    dsimp only
    refine congrArg _ (funext fun back => ?_)
    split
    · rename_i rest
      rw [onHead_self]
      cases readItems? fuel levels rest <;> rfl
    · rw [onHead_of_ne (by decide), onHead_self]
      rfl
    · rename_i comma closing
      rw [onHead_of_not comma, onHead_of_not closing]

theorem readMembers?_succ (fuel levels : Nat) (members : Members) (cs : List Char) :
    readMembers? (fuel + 1) levels members cs =
      (skipGaps false cs).bind (onHead '\x7d' (fun rest => some (members, rest)) fun cs =>
        (readKey? fuel cs).bind fun key => onHead '='
          (onBlanks fun rest => (readValue? fuel levels rest).bind fun value =>
            (members.assign value.1 key.1.1 key.1.2).bind fun members =>
              (skipGaps false value.2).bind (onHead ',' (readMembers? fuel levels members)
                (onHead '\x7d' (fun rest => some (members, rest)) fun _ => none)))
          (fun _ => none) key.2) := by
  rw [readMembers?]
  refine congrArg _ (funext fun front => ?_)
  split
  · rw [onHead_self]
    rfl
  · rename_i more
    rw [onHead_of_not more]
    refine congrArg _ (funext fun ⟨⟨path, key⟩, rest⟩ => ?_)
    dsimp only
    rw [← after?_bind]
    refine congrArg _ (funext fun rest => ?_)
    refine congrArg _ (funext fun ⟨value, rest⟩ => ?_)
    dsimp only
    refine congrArg _ (funext fun members => congrArg _ (funext fun back => ?_))
    split
    · rw [onHead_self]
    · rw [onHead_of_ne (by decide), onHead_self]
      rfl
    · rename_i comma closing
      rw [onHead_of_not comma, onHead_of_not closing]

theorem readKey?_nil (fuel : Nat) : readKey? fuel [] = none := by
  cases fuel <;> rfl

theorem readValue?_nil (fuel levels : Nat) : readValue? fuel levels [] = none := by
  cases fuel <;> rfl

variable (added) in
/-- With this fuel values, items and members are the same when more lines follow, if the text is short
enough for the fuel. -/
structure ReadsOn (fuel : Nat) : Prop where
  value : ∀ more levels cs, 2 * cs.length < fuel → 2 * (cs.length + added.length) < more →
    Persists added cs (readValue? fuel levels cs) (readValue? more levels (cs ++ added))
  items : ∀ more levels cs, 2 * cs.length + 1 < fuel → 2 * (cs.length + added.length) + 1 < more →
    Persists added cs (readItems? fuel levels cs) (readItems? more levels (cs ++ added))
  members : ∀ more levels members cs, 2 * cs.length + 1 < fuel →
    2 * (cs.length + added.length) + 1 < more →
    Persists added cs (readMembers? fuel levels members cs) (readMembers? more levels members (cs ++ added))

theorem ReadsOn.value_succ {fuel : Nat} (h : ReadsOn added fuel) (more levels : Nat) (cs : List Char)
    (enough : 2 * cs.length < fuel + 1) (enough_more : 2 * (cs.length + added.length) < more) :
    Persists added cs (readValue? (fuel + 1) levels cs) (readValue? more levels (cs ++ added)) := by
  obtain ⟨more, rfl⟩ := Nat.exists_eq_succ_of_ne_zero (show more ≠ 0 by omega)
  rw [readValue?_succ, readValue?_succ]
  refine Persists.ite_head ((persists_readString? cs).map Node.text)
    (Persists.onHead (by decide) (fun rest same => ?_)
      (Persists.onHead (by decide) (fun rest same => ?_) (persists_readScalar? cs)))
  · rw [same, List.length_cons] at enough enough_more
    split
    · exact persists_none _
    · exact (h.items more (levels - 1) rest (by omega) (by omega)).map Node.list
  · rw [same, List.length_cons] at enough enough_more
    split
    · exact persists_none _
    · exact (h.members more (levels - 1) [] rest (by omega) (by omega)).map Members.toNode

theorem ReadsOn.items_succ {fuel : Nat} (h : ReadsOn added fuel) (more levels : Nat) (cs : List Char)
    (enough : 2 * cs.length + 1 < fuel + 1) (enough_more : 2 * (cs.length + added.length) + 1 < more) :
    Persists added cs (readItems? (fuel + 1) levels cs) (readItems? more levels (cs ++ added)) := by
  obtain ⟨more, rfl⟩ := Nat.exists_eq_succ_of_ne_zero (show more ≠ 0 by omega)
  rw [readItems?_succ, readItems?_succ]
  refine (passes_skipGaps false cs).bind (by simp [onHead, readValue?_nil]) fun front hfront => ?_
  have shorter := hfront.length_le
  refine Persists.onHead (by decide) (fun _ _ => persists_some _) ?_
  refine (h.value more levels front (by omega) (by omega)).bind fun item middle hmiddle => ?_
  refine (passes_skipGaps false middle).bind rfl fun back hback => ?_
  have shortest := (hback.trans hmiddle).length_le
  refine Persists.onHead (by decide) (fun rest same => ?_)
    (Persists.onHead (by decide) (fun _ _ => persists_some _) (persists_none _))
  rw [same, List.length_cons] at shortest
  exact (h.items more levels rest (by omega) (by omega)).map (item :: ·)

theorem ReadsOn.members_succ {fuel : Nat} (h : ReadsOn added fuel) (more levels : Nat) (members : Members)
    (cs : List Char) (enough : 2 * cs.length + 1 < fuel + 1)
    (enough_more : 2 * (cs.length + added.length) + 1 < more) :
    Persists added cs (readMembers? (fuel + 1) levels members cs)
      (readMembers? more levels members (cs ++ added)) := by
  obtain ⟨more, rfl⟩ := Nat.exists_eq_succ_of_ne_zero (show more ≠ 0 by omega)
  rw [readMembers?_succ, readMembers?_succ]
  refine (passes_skipGaps false cs).bind (by simp [onHead, readKey?_nil]) fun front hfront => ?_
  have shorter := hfront.length_le
  refine Persists.onHead (by decide) (fun _ _ => persists_some _) ?_
  refine (persists_readKey? (by omega) (by omega)).bind fun key named hnamed => ?_
  refine Persists.onHead (by decide) (fun given same => ?_) (persists_none _)
  have shorter := (hnamed.trans hfront).length_le
  rw [same, List.length_cons] at shorter
  refine Persists.onBlanks fun start hstart => ?_
  have shorter := hstart.length_le
  refine (h.value more levels start (by omega) (by omega)).bind fun value middle hmiddle => ?_
  refine Persists.of_option _ fun members => ?_
  refine (passes_skipGaps false middle).bind rfl fun back hback => ?_
  have shortest := (hback.trans hmiddle).length_le
  refine Persists.onHead (by decide) (fun rest same => ?_)
    (Persists.onHead (by decide) (fun _ _ => persists_some _) (persists_none _))
  rw [same, List.length_cons] at shortest
  exact h.members more levels members rest (by omega) (by omega)

theorem readsOn (fuel : Nat) : ReadsOn added fuel := by
  induction fuel with
  | zero =>
      exact ⟨fun _ _ _ enough => absurd enough (Nat.not_lt_zero _),
        fun _ _ _ enough => absurd enough (Nat.not_lt_zero _),
        fun _ _ _ _ enough => absurd enough (Nat.not_lt_zero _)⟩
  | succ fuel ih => exact ⟨ih.value_succ, ih.items_succ, ih.members_succ⟩

end UsageBoard.Toml
