import Mathlib.Data.List.TakeWhile
import UsageBoard.Proofs.Toml.Persistence

/-!
# Strings in TOML texts that go on

A string ends at its closing quote, or at the last of the quotes that may stand before the three that
close it.  Main statement: a string is the same when more lines follow (`persists_readString?`).
-/

namespace UsageBoard.Toml

variable {added cs rest : List Char}

/-! ## Strings of one line -/

theorem push_eq_some_iff {split : Split} {c : Char} {found : List Char} :
    split.push c = some (found, rest) ↔ ∃ inner, split = some (inner, rest) ∧ found = c :: inner := by
  cases split with
  | none => exact iff_of_false nofun fun ⟨_, there, _⟩ => nomatch there
  | some inside =>
      obtain ⟨inner, left⟩ := inside
      constructor
      · rintro ⟨⟩
        exact ⟨inner, rfl, rfl⟩
      · rintro ⟨_, ⟨⟩, rfl⟩
        rfl

theorem Persists.push (c : Char) {found later : Split} (persists : Persists added cs found later) :
    Persists added cs (found.push c) (later.push c) := persists.map (c :: ·)

theorem upToQuote_cons {c quote : Char} {escapes : Bool} (other : c ≠ '\\') :
    upToQuote quote escapes (c :: cs) =
      if c = quote then some ([], cs)
      else if isPlain c then (upToQuote quote escapes cs).push c
      else none := upToQuote.eq_3 _ _ _ _ fun _ _ same => absurd same other

/-- A string of one line has no controls and ends at a quote, whatever follows that quote. -/
theorem eq_of_upToQuote {quote : Char} (slash : quote ≠ '\\') {escapes : Bool} {found : List Char}
    (read : upToQuote quote escapes cs = some (found, rest)) :
    cs = found ++ quote :: rest ∧ (∀ c ∈ found, isPlain c) ∧
      ∀ added, upToQuote quote escapes (found ++ quote :: added) = some (found, added) := by
  fun_induction upToQuote quote escapes cs generalizing found with
  | case1 => cases read
  | case2 c others escaping plain ih =>
      obtain ⟨inner, pushed, rfl⟩ := push_eq_some_iff.mp read
      obtain ⟨last, inside, rfl⟩ := push_eq_some_iff.mp pushed
      obtain ⟨whole, plain_last, goes_on⟩ := ih inside
      refine ⟨by rw [whole]; rfl, ?_, fun added => ?_⟩
      · exact List.forall_mem_cons.mpr ⟨by decide, List.forall_mem_cons.mpr ⟨plain, plain_last⟩⟩
      · rw [List.cons_append, List.cons_append, upToQuote, if_pos escaping, if_pos plain, goes_on]
        rfl
  | case3 => cases read
  | case4 c others raw ih =>
      obtain ⟨inner, inside, rfl⟩ := push_eq_some_iff.mp read
      obtain ⟨whole, plain_inner, goes_on⟩ := ih inside
      refine ⟨by rw [whole]; rfl, List.forall_mem_cons.mpr ⟨by decide, plain_inner⟩, fun added => ?_⟩
      obtain ⟨d, following, same⟩ : ∃ d following, inner ++ quote :: added = d :: following :=
        List.exists_cons_of_ne_nil (by simp)
      rw [List.cons_append, same, upToQuote, if_neg raw, ← same, goes_on]
      rfl
  | case5 others alone =>
      cases read
      refine ⟨rfl, List.forall_mem_nil _, fun added => ?_⟩
      rw [List.nil_append, upToQuote_cons slash, if_pos rfl]
  | case6 c others alone other plain ih =>
      obtain ⟨inner, inside, rfl⟩ := push_eq_some_iff.mp read
      obtain ⟨whole, plain_inner, goes_on⟩ := ih inside
      refine ⟨by rw [whole]; rfl, List.forall_mem_cons.mpr ⟨plain, plain_inner⟩, fun added => ?_⟩
      have hc : c ≠ '\\' := by
        intro hc
        cases others with
        | nil => cases inside
        | cons d others => exact alone d others hc rfl
      rw [List.cons_append, upToQuote_cons hc, if_neg other, if_pos plain, goes_on]
      rfl
  | case7 => cases read

theorem persists_upToQuote {quote : Char} (feed : quote ≠ '\n') (slash : quote ≠ '\\') (escapes : Bool)
    (cs : List Char) :
    Persists added cs (upToQuote quote escapes cs) (upToQuote quote escapes (cs ++ added)) := by
  intro found rest read
  obtain ⟨rfl, -, goes_on⟩ := eq_of_upToQuote slash read
  have suffix : quote :: rest <:+ found ++ quote :: rest := List.suffix_append _ _
  refine ⟨(List.suffix_cons _ _).trans suffix, fun begins => ⟨?_, ?_⟩⟩
  · rw [List.append_assoc, List.cons_append]
    exact goes_on _
  · exact (begins.of_suffix suffix (List.cons_ne_nil _ _)).tail feed

/-! ## Strings of several lines -/

theorem afterBreak?_append (broken : afterBreak? cs = some rest) :
    afterBreak? (cs ++ added) = some (rest ++ added) := by
  unfold afterBreak? at broken
  split at broken
  · obtain rfl := Option.some.inj broken
    rfl
  · obtain rfl := Option.some.inj broken
    rfl
  · cases broken

theorem afterBreak?_append_of_none (begins : BeginsLine cs added) (whole : afterBreak? cs = none) :
    afterBreak? (cs ++ added) = none := by
  rcases begins with rfl | last
  · rwa [List.append_nil]
  · match cs with
    | [] => cases last
    | [c] =>
        obtain rfl : c = '\n' := by simpa using last
        cases whole
    | c :: d :: cs =>
        unfold afterBreak? at whole ⊢
        split at whole <;> simp_all

theorem suffix_of_afterBreak? (broken : afterBreak? cs = some rest) : rest <:+ cs := by
  unfold afterBreak? at broken
  split at broken
  · obtain rfl := Option.some.inj broken
    exact List.suffix_cons _ _
  · obtain rfl := Option.some.inj broken
    exact (List.suffix_cons _ _).trans (List.suffix_cons _ _)
  · cases broken

section Quotes

variable {quote : Char} {escapes : Bool} {raw : List Char}

theorem upToQuotes_cons (c : Char) (rest : List Char) :
    upToQuotes quote escapes (c :: rest) =
      if c = quote ∧ [quote, quote].isPrefixOf rest then
        let loose := ((rest.drop 2).take looseQuotes).takeWhile (· == quote)
        some (loose, rest.drop (2 + loose.length))
      else if escapes ∧ c = '\\' then
        match rest with
        | [] => none
        | d :: rest =>
            if isPlain d ∨ (afterBreak? (d :: rest)).isSome then
              ((upToQuotes quote escapes rest).push d).push c
            else none
      else if isPlain c ∨ (afterBreak? (c :: rest)).isSome then (upToQuotes quote escapes rest).push c
      else none := by
  cases rest <;> rfl

theorem upToQuotes_close :
    upToQuotes quote escapes (quote :: quote :: quote :: cs) =
      let loose := (cs.take looseQuotes).takeWhile (· == quote)
      some (loose, cs.drop loose.length) := by
  rw [upToQuotes_cons, if_pos (by simp)]
  simp [Nat.add_comm 2]

theorem upToQuotes_escape {c d : Char} (open_ : ¬(c = quote ∧ [quote, quote].isPrefixOf (d :: cs)))
    (escaping : escapes ∧ c = '\\') :
    upToQuotes quote escapes (c :: d :: cs) =
      if isPlain d ∨ (afterBreak? (d :: cs)).isSome then
        ((upToQuotes quote escapes cs).push d).push c
      else none := by
  rw [upToQuotes_cons, if_neg open_, if_pos escaping]

theorem upToQuotes_char {c : Char} (open_ : ¬(c = quote ∧ [quote, quote].isPrefixOf cs))
    (other : ¬(escapes ∧ c = '\\')) :
    upToQuotes quote escapes (c :: cs) =
      if isPlain c ∨ (afterBreak? (c :: cs)).isSome then (upToQuotes quote escapes cs).push c
      else none := by
  rw [upToQuotes_cons, if_neg open_, if_neg other]

/-- A string of several lines ends in three quotes. -/
theorem length_of_upToQuotes {found : List Char} (read : upToQuotes quote escapes cs = some (found, rest)) :
    3 ≤ cs.length := by
  induction cs using upToQuotes.induct quote escapes generalizing found with
  | case1 => cases read
  | case2 c rest closes =>
      have long := (List.isPrefixOf_iff_prefix.mp closes.2).length_le
      simpa using long
  | case3 c escaping open_ =>
      rw [upToQuotes_cons, if_neg open_, if_pos escaping] at read
      cases read
  | case4 c escaping d rest plain open_ ih =>
      rw [upToQuotes_escape open_ escaping, if_pos plain] at read
      obtain ⟨_, pushed, -⟩ := push_eq_some_iff.mp read
      obtain ⟨_, inner, -⟩ := push_eq_some_iff.mp pushed
      have long := ih inner
      simp only [List.length_cons]
      omega
  | case5 c escaping d rest control open_ =>
      rw [upToQuotes_escape open_ escaping, if_neg control] at read
      cases read
  | case6 c rest open_ other plain ih =>
      rw [upToQuotes_char open_ other, if_pos plain] at read
      obtain ⟨_, inner, -⟩ := push_eq_some_iff.mp read
      have long := ih inner
      simp only [List.length_cons]
      omega
  | case7 c rest open_ other control =>
      rw [upToQuotes_char open_ other, if_neg control] at read
      cases read

/-- The quotes right before the three that end a string are the same when more lines follow. -/
theorem loose_append (feed : quote ≠ '\n') (begins : BeginsLine cs added) :
    ((cs ++ added).take looseQuotes).takeWhile (· == quote) =
      (cs.take looseQuotes).takeWhile (· == quote) := by
  rcases begins with rfl | last
  · rw [List.append_nil]
  · match cs with
    | [] => cases last
    | [c] =>
        obtain rfl : c = '\n' := by simpa using last
        simp [looseQuotes, Ne.symm feed]
    | c :: d :: cs => rfl

theorem beginsLine_after_loose (feed : quote ≠ '\n') (begins : BeginsLine cs added) :
    BeginsLine (cs.drop ((cs.take looseQuotes).takeWhile (· == quote)).length) added := by
  rcases begins with rfl | last
  · exact .inl rfl
  · obtain ⟨after, whole⟩ : (cs.take looseQuotes).takeWhile (· == quote) <+: cs :=
      (List.takeWhile_prefix _).trans (List.take_prefix _ _)
    -- the line feed at the end is no quote, so that it stands after the loose ones
    have nonempty : after ≠ [] := by
      rintro rfl
      rw [List.append_nil] at whole
      have isQuote := List.mem_takeWhile_imp (whole ▸ List.mem_of_getLast? last)
      exact feed (beq_iff_eq.mp isQuote).symm
    have left := (congrArg (List.drop _) whole.symm).trans List.drop_left
    rw [left]
    exact BeginsLine.of_suffix (.inr last) ⟨_, whole⟩ nonempty

theorem isSome_afterBreak?_append (broken : (afterBreak? cs).isSome) :
    (afterBreak? (cs ++ added)).isSome := by
  obtain ⟨rest, found⟩ := Option.isSome_iff_exists.mp broken
  rw [afterBreak?_append found]
  rfl

/-- Three quotes end a string, with the loose ones before them. -/
theorem persists_close (feed : quote ≠ '\n') (cs : List Char) :
    Persists added (quote :: quote :: quote :: cs) (upToQuotes quote escapes (quote :: quote :: quote :: cs))
      (upToQuotes quote escapes (quote :: quote :: quote :: cs ++ added)) := by
  intro value left read
  obtain ⟨rfl, rfl⟩ := Prod.mk.inj (Option.some.inj (upToQuotes_close.symm.trans read))
  refine ⟨(List.drop_suffix _ _).trans ⟨[quote, quote, quote], rfl⟩, fun begins => ?_⟩
  have begins : BeginsLine cs added := ((begins.tail feed).tail feed).tail feed
  refine ⟨?_, beginsLine_after_loose feed begins⟩
  have short : ((cs.take looseQuotes).takeWhile (· == quote)).length ≤ cs.length :=
    ((List.takeWhile_prefix _).trans (List.take_prefix _ _)).length_le
  rw [List.cons_append, List.cons_append, List.cons_append, upToQuotes_close]
  simp only [loose_append feed begins, List.drop_append_of_le_length short]

/-- A text that is long enough tells whether three quotes stand at its front. -/
theorem open_append {c : Char} (long : 2 ≤ cs.length) (open_ : ¬(c = quote ∧ [quote, quote].isPrefixOf cs)) :
    ¬(c = quote ∧ [quote, quote].isPrefixOf (cs ++ added)) := by
  match cs with
  | [] => cases long
  | [_] => simp at long
  | a :: b :: cs => simpa using open_

theorem persists_upToQuotes (feed : quote ≠ '\n') (cs : List Char) :
    Persists added cs (upToQuotes quote escapes cs) (upToQuotes quote escapes (cs ++ added)) := by
  have nothing {cs : List Char} (c : Char) (empty : cs = []) :
      (upToQuotes quote escapes cs).push c = none := by rw [empty]; rfl
  induction cs using upToQuotes.induct quote escapes with
  | case1 => exact persists_none _
  | case2 c rest closes =>
      obtain ⟨rfl, front⟩ := closes
      obtain ⟨after, rfl⟩ := List.isPrefixOf_iff_prefix.mp front
      exact persists_close feed after
  | case3 c escaping open_ =>
      rw [upToQuotes_cons, if_neg open_, if_pos escaping]
      exact persists_none _
  | case4 c escaping d rest plain open_ ih =>
      rw [upToQuotes_escape open_ escaping, if_pos plain]
      intro value left read
      have long : 2 ≤ (d :: rest).length := by
        obtain ⟨_, pushed, -⟩ := push_eq_some_iff.mp read
        obtain ⟨_, inner, -⟩ := push_eq_some_iff.mp pushed
        have long := length_of_upToQuotes inner
        simp only [List.length_cons]
        omega
      have again : upToQuotes quote escapes (c :: d :: rest ++ added) =
          ((upToQuotes quote escapes (rest ++ added)).push d).push c :=
        (upToQuotes_escape (open_append long open_) escaping).trans
          (if_pos (plain.imp_right isSome_afterBreak?_append))
      rw [again]
      exact (((ih.push d).cons (nothing d)).push c).cons nofun value left read
  | case5 c escaping d rest control open_ =>
      rw [upToQuotes_escape open_ escaping, if_neg control]
      exact persists_none _
  | case6 c rest open_ other plain ih =>
      rw [upToQuotes_char open_ other, if_pos plain]
      intro value left read
      have long : 2 ≤ rest.length := by
        obtain ⟨_, inner, -⟩ := push_eq_some_iff.mp read
        exact (Nat.le_succ 2).trans (length_of_upToQuotes inner)
      have again : upToQuotes quote escapes (c :: rest ++ added) =
          (upToQuotes quote escapes (rest ++ added)).push c :=
        (upToQuotes_char (open_append long open_) other).trans
          (if_pos (plain.imp_right isSome_afterBreak?_append))
      rw [again]
      exact (ih.push c).cons (nothing c) value left read
  | case7 c rest open_ other control =>
      rw [upToQuotes_char open_ other, if_neg control]
      exact persists_none _

end Quotes

/-! ## Strings of either kind -/

theorem Persists.escaped {found later : Split} (persists : Persists added cs found later) :
    Persists added cs (Toml.escaped found) (Toml.escaped later) := by
  refine persists.bind fun raw rest _ => ?_
  dsimp only
  cases unescape false raw with
  | none => exact persists_none _
  | some text => exact persists_some _

theorem Persists.literal {found later : Split} (persists : Persists added cs found later) :
    Persists added cs (Toml.literal found) (Toml.literal later) := persists.map String.ofList

theorem readLineString?_eq (cs : List Char) :
    readLineString? cs =
      onHead '"' (fun rest => escaped (upToQuote '"' true rest))
        (onHead '\'' (fun rest => literal (upToQuote '\'' false rest)) fun _ => none) cs := by
  cases cs with
  | nil => rfl
  | cons c rest =>
      by_cases hdouble : c = '"'
      · subst hdouble
        rfl
      · by_cases hsingle : c = '\''
        · subst hsingle
          rfl
        · rw [readLineString?.eq_3 _ (by simpa using hdouble) (by simpa using hsingle)]
          rw [onHead_of_ne hdouble, onHead_of_ne hsingle]

theorem persists_readLineString? (cs : List Char) :
    Persists added cs (readLineString? cs) (readLineString? (cs ++ added)) := by
  rw [readLineString?_eq, readLineString?_eq]
  refine Persists.onHead (by decide) (fun rest _ => ?_) (Persists.onHead (by decide) (fun rest _ => ?_) ?_)
  · exact (persists_upToQuote (by decide) (by decide) true rest).escaped
  · exact (persists_upToQuote (by decide) (by decide) false rest).literal
  · exact persists_none _

theorem passes_withoutBreak (cs : List Char) :
    Passes added cs (some (withoutBreak cs)) (some (withoutBreak (cs ++ added))) := by
  rintro _ ⟨⟩
  unfold withoutBreak
  cases broken : afterBreak? cs with
  | some rest => exact ⟨suffix_of_afterBreak? broken, fun _ _ => by rw [afterBreak?_append broken]; rfl⟩
  | none =>
      refine ⟨List.suffix_refl _, fun _ begins => ?_⟩
      rw [afterBreak?_append_of_none begins broken]
      rfl

/-- Reads a string after its first quote: of one line, or of several lines after three quotes. -/
def afterQuote (quote : Char) (line several : List Char → Option (String × List Char)) :
    List Char → Option (String × List Char) :=
  onHead quote (onHead quote several fun rest => some ("", rest)) line

theorem persists_afterQuote {quote : Char} (feed : quote ≠ '\n')
    {line several : List Char → Option (String × List Char)}
    (one : ∀ rest, Persists added rest (line rest) (line (rest ++ added)))
    (more : ∀ rest, Persists added rest (several rest) (several (rest ++ added))) (cs : List Char) :
    Persists added cs (afterQuote quote line several cs) (afterQuote quote line several (cs ++ added)) :=
  Persists.onHead feed
    (fun _ _ => Persists.onHead feed (fun rest _ => more rest) (persists_some ""))
    (one cs)

theorem afterQuote_of_not {quote : Char} {line several : List Char → Option (String × List Char)}
    (alone : ∀ rest, cs ≠ quote :: quote :: rest) (empty : ∀ rest, line (quote :: rest) = some ("", rest)) :
    afterQuote quote line several cs = line cs := by
  cases cs with
  | nil => rfl
  | cons c cs =>
      by_cases hc : c = quote
      · subst hc
        rw [empty, afterQuote, onHead_self]
        cases cs with
        | nil => rfl
        | cons d cs =>
            have hd : d ≠ c := fun same => alone cs (by rw [same])
            rw [onHead_of_ne hd]
      · rw [afterQuote, onHead_of_ne hc]

theorem readString?_eq (cs : List Char) :
    readString? cs =
      onHead '"'
        (afterQuote '"' (fun rest => escaped (upToQuote '"' true rest)) fun rest =>
          (some (withoutBreak rest)).bind fun rest => escaped (upToQuotes '"' true rest))
        (onHead '\''
          (afterQuote '\'' (fun rest => literal (upToQuote '\'' false rest)) fun rest =>
            (some (withoutBreak rest)).bind fun rest => literal (upToQuotes '\'' false rest))
          fun _ => none) cs := by
  rw [readString?.eq_def]
  split
  · rfl
  · rfl
  · rename_i double single
    rw [readLineString?_eq]
    cases cs with
    | nil => rfl
    | cons c cs =>
        by_cases hdouble : c = '"'
        · subst hdouble
          rw [onHead_self, onHead_self, afterQuote_of_not (fun rest same => double rest (by rw [same])) fun _ => rfl]
        · by_cases hsingle : c = '\''
          · subst hsingle
            rw [onHead_of_ne hdouble, onHead_self, onHead_of_ne hdouble, onHead_self,
              afterQuote_of_not (fun rest same => single rest (by rw [same])) fun _ => rfl]
          · rw [onHead_of_ne hdouble, onHead_of_ne hsingle, onHead_of_ne hdouble, onHead_of_ne hsingle]

theorem persists_readString? (cs : List Char) :
    Persists added cs (readString? cs) (readString? (cs ++ added)) := by
  have several {read : List Char → Option (String × List Char)} (nothing : read [] = none)
      (persists : ∀ rest, Persists added rest (read rest) (read (rest ++ added))) (rest : List Char) :
      Persists added rest ((some (withoutBreak rest)).bind read)
        ((some (withoutBreak (rest ++ added))).bind read) :=
    (passes_withoutBreak rest).bind nothing fun rest _ => persists rest
  rw [readString?_eq, readString?_eq]
  refine Persists.onHead (by decide) (fun rest _ => ?_) (Persists.onHead (by decide) (fun rest _ => ?_) ?_)
  · refine persists_afterQuote (by decide) ?_ (several rfl ?_) rest
    · exact fun rest => (persists_upToQuote (by decide) (by decide) true rest).escaped
    · exact fun rest => (persists_upToQuotes (by decide) rest).escaped
  · refine persists_afterQuote (by decide) ?_ (several rfl ?_) rest
    · exact fun rest => (persists_upToQuote (by decide) (by decide) false rest).literal
    · exact fun rest => (persists_upToQuotes (by decide) rest).literal
  · exact persists_none _

end UsageBoard.Toml
