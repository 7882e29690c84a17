import UsageBoard.Proofs.Text.Runs
import UsageBoard.Proofs.Toml.Lines

/-!
# Lines that give a key a string

Main statement: a line of a key, an equality sign and a string in double quotes assigns to the key what
the string stands for, whatever the string is (`StringLine.reach?_eq`).
-/

namespace UsageBoard.Toml

open UsageBoard.Document (Node)

variable {raw cs rest after : List Char} {value : String}

/-! ## Strings of one line -/

/-- In double quotes some characters stand for a value. -/
def IsString (raw : List Char) (value : String) : Prop :=
  readLineString? ('"' :: (raw ++ ['"'])) = some (value, [])

instance (raw : List Char) (value : String) : Decidable (IsString raw value) :=
  inferInstanceAs (Decidable (_ = _))

theorem IsString.eq_some (isString : IsString raw value) :
    (∀ c ∈ raw, isPlain c) ∧ unescape false raw = some value.toList ∧
      ∀ added, upToQuote '"' true (raw ++ '"' :: added) = some (raw, added) := by
  obtain ⟨⟨found, rest⟩, read, unescaped⟩ := Option.bind_eq_some_iff.mp isString
  obtain ⟨chars, unescaped, same⟩ := Option.bind_eq_some_iff.mp unescaped
  obtain ⟨rfl, rfl⟩ := Prod.mk.inj (Option.some.inj same)
  obtain ⟨whole, plain, goes_on⟩ := eq_of_upToQuote (by decide) read
  obtain rfl : raw = found := List.append_cancel_right whole
  exact ⟨plain, by rwa [String.toList_ofList], goes_on⟩

theorem upToQuote_of_plain (plain : ∀ c ∈ raw, isPlain c ∧ c ≠ '"' ∧ c ≠ '\\') (added : List Char) :
    upToQuote '"' true (raw ++ '"' :: added) = some (raw, added) := by
  induction raw with
  | nil => rfl
  | cons c raw ih =>
      obtain ⟨⟨hplain, quote, slash⟩, plain⟩ := List.forall_mem_cons.mp plain
      rw [List.cons_append, upToQuote_cons slash, if_neg quote, if_pos hplain, ih plain]
      rfl

theorem unescape_of_plain (plain : ∀ c ∈ raw, isPlain c ∧ c ≠ '"' ∧ c ≠ '\\') :
    unescape false raw = some raw := by
  induction raw with
  | nil => rfl
  | cons c raw ih =>
      obtain ⟨⟨-, -, slash⟩, plain⟩ := List.forall_mem_cons.mp plain
      rw [unescape.eq_6 _ _ _ (fun _ _ _ same => absurd same slash)
          (fun _ _ _ _ _ same => absurd same slash) (fun _ _ _ _ _ _ _ _ _ same => absurd same slash)
          (fun _ _ same => absurd same slash),
        if_neg slash, if_neg (by simp), ih plain]
      rfl

/-- Characters without quotes, backslashes and controls stand for themselves. -/
theorem isString_of_plain (plain : ∀ c ∈ value.toList, isPlain c ∧ c ≠ '"' ∧ c ≠ '\\') :
    IsString value.toList value := by
  rw [IsString, readLineString?, upToQuote_of_plain plain, escaped, Option.bind_eq_bind, Option.bind_some]
  dsimp only
  rw [unescape_of_plain plain]
  simp

theorem IsString.readString? (isString : IsString raw value) (other : rest.head? ≠ some '"') :
    readString? ('"' :: (raw ++ '"' :: rest)) = some (value, rest) := by
  obtain ⟨-, unescaped, goes_on⟩ := isString.eq_some
  have alone : ∀ more, raw ++ '"' :: rest ≠ '"' :: '"' :: more := by
    intro more same
    cases raw with
    | nil => exact other (by rw [(List.cons.inj same).2]; rfl)
    | cons c raw =>
        obtain ⟨rfl, -⟩ := List.cons.inj same
        have empty := goes_on []
        rw [List.cons_append, upToQuote_cons (by decide), if_pos rfl] at empty
        cases empty
  rw [readString?_eq, onHead_self, afterQuote_of_not alone fun _ => rfl, goes_on, escaped]
  dsimp only [Option.bind_eq_bind, Option.bind_some]
  rw [unescaped]
  simp

/-! ## Lines -/

/-- Whether a line ends here. -/
def EndsLine (cs : List Char) : Prop := cs = [] ∨ (afterBreak? cs).isSome

theorem EndsLine.cases (ends : EndsLine cs) :
    cs = [] ∨ ∃ ret rest, (ret = [] ∨ ret = ['\r']) ∧ cs = ret ++ '\n' :: rest ∧ withoutBreak cs = rest := by
  refine ends.imp_right fun broken => ?_
  unfold afterBreak? at broken
  split at broken
  · exact ⟨[], _, .inl rfl, rfl, rfl⟩
  · exact ⟨['\r'], _, .inr rfl, rfl, rfl⟩
  · cases broken

theorem EndsLine.head (ends : EndsLine cs) : ∀ c ∈ cs.head?, c = '\n' ∨ c = '\r' := by
  rcases ends.cases with rfl | ⟨ret, rest, rfl | rfl, rfl, -⟩ <;> simp

theorem EndsLine.stop (ends : EndsLine cs) {p : Char → Bool} (feed : p '\n' = false)
    (ret : p '\r' = false) : ∀ c ∈ cs.head?, p c = false := by
  intro c hc
  rcases ends.head c hc with rfl | rfl
  · exact feed
  · exact ret

theorem EndsLine.afterEnd? (ends : EndsLine cs) : afterEnd? cs = some (withoutBreak cs) := by
  rcases ends with rfl | broken
  · rfl
  · obtain ⟨rest, found⟩ := Option.isSome_iff_exists.mp broken
    have there : cs ≠ [] := by
      rintro rfl
      cases found
    rw [Toml.afterEnd?, if_neg there, withoutBreak, found]
    rfl

/-- A line of a key, an equality sign and a string in double quotes, before which and after which blanks
may stand, and last a comment. -/
structure StringLine where
  indent : List Char
  key : List Char
  blanks : List Char
  comment : List Char
  indent_blank : ∀ c ∈ indent, isBlank c
  key_ne_nil : key ≠ []
  key_bare : ∀ c ∈ key, isBareKeyChar c
  blanks_blank : ∀ c ∈ blanks, isBlank c
  comment_plain : ∀ c ∈ comment, isPlain c
  comment_marked : ∀ c ∈ comment.head?, c = '#'

namespace StringLine

variable (line : StringLine)

/-- What stands before the string, with its first quote. -/
def front : List Char := line.indent ++ (line.key ++ " = \"".toList)

/-- What follows the string. -/
def back : List Char := line.blanks ++ line.comment

/-- The line with some characters between the quotes. -/
def text (raw : List Char) : List Char := line.front ++ (raw ++ '"' :: line.back)

theorem notMem_front {c : Char} (blank : isBlank c = false) (bare : isBareKeyChar c = false)
    (other : c ∉ " = \"".toList) : c ∉ line.front := by
  intro there
  rcases List.mem_append.mp there with there | there
  · rw [line.indent_blank c there] at blank
    cases blank
  · rcases List.mem_append.mp there with there | there
    · rw [line.key_bare c there] at bare
      cases bare
    · exact other there

theorem notMem_back {c : Char} (blank : isBlank c = false) (plain : isPlain c = false) :
    c ∉ '"' :: line.back := by
  intro there
  rcases List.mem_cons.mp there with rfl | there
  · cases plain
  · rcases List.mem_append.mp there with there | there
    · rw [line.blanks_blank c there] at blank
      cases blank
    · rw [line.comment_plain c there] at plain
      cases plain

theorem afterLine?_back (ends : EndsLine after) : afterLine? (line.back ++ after) = some (withoutBreak after) := by
  have stop : ∀ c ∈ (line.comment ++ after).head?, isBlank c = false := by
    intro c hc
    cases hcomment : line.comment with
    | nil =>
        rw [hcomment] at hc
        exact ends.stop rfl rfl c hc
    | cons d comment =>
        obtain rfl : d = c := by simpa [hcomment] using hc
        rw [line.comment_marked d (by rw [hcomment]; rfl)]
        rfl
  have skipped : skipBlanks (line.back ++ after) = line.comment ++ after := by
    rw [skipBlanks, back, List.append_assoc]
    exact (Text.takeWhile_of_run line.blanks_blank stop).2
  rw [afterLine?_eq, onBlanks, skipped]
  cases hcomment : line.comment with
  | nil =>
      have other : ∀ rest, after ≠ '#' :: rest := by
        rintro rest rfl
        exact absurd (ends.head '#' rfl) (by decide)
      rw [List.nil_append, onHead_of_not other, ends.afterEnd?]
  | cons c comment =>
      obtain rfl : c = '#' := line.comment_marked c (by rw [hcomment]; rfl)
      have plain : ∀ c ∈ comment, isPlain c := fun c hc => line.comment_plain c (by simp [hcomment, hc])
      rw [List.cons_append, onHead_self,
        (Text.takeWhile_of_run plain (ends.stop (by decide) (by decide))).2, ends.afterEnd?]

theorem head_back (ends : EndsLine after) : (line.back ++ after).head? ≠ some '"' := by
  intro quote
  have ended := line.afterLine?_back ends
  cases whole : line.back ++ after with
  | nil => simp [whole] at quote
  | cons c rest =>
      obtain rfl : c = '"' := by simpa [whole] using quote
      rw [whole] at ended
      cases ended

theorem isBlank_of_bare {c : Char} (bare : isBareKeyChar c) : isBlank c = false := by
  refine Bool.eq_false_iff.mpr fun blank => ?_
  rw [isBlank, Bool.or_eq_true, beq_iff_eq, beq_iff_eq] at blank
  rcases blank with rfl | rfl <;> exact absurd bare (by decide)

theorem skipBlanks_of_bare {c : Char} (bare : isBareKeyChar c) (rest : List Char) :
    skipBlanks (c :: rest) = c :: rest := by
  rw [skipBlanks, List.dropWhile_cons_of_neg (by simp [isBlank_of_bare bare])]

/-- No end of a line begins with a character of a key. -/
theorem afterLine?_of_bare {c : Char} (bare : isBareKeyChar c) (rest : List Char) :
    afterLine? (c :: rest) = none := by
  have mark : c ≠ '#' := by rintro rfl; exact absurd bare (by decide)
  have feed : c ≠ '\n' := by rintro rfl; exact absurd bare (by decide)
  have ret : c ≠ '\r' := by rintro rfl; exact absurd bare (by decide)
  rw [afterLine?_eq, onBlanks, skipBlanks_of_bare bare, onHead_of_ne mark, afterEnd?,
    if_neg (List.cons_ne_nil c rest)]
  unfold afterBreak?
  split <;> simp_all

theorem readKey?_key (fuel : Nat) (rest : List Char) :
    readKey? (fuel + 1) (line.key ++ (" = \"".toList ++ rest)) =
      some (([], String.ofList line.key), '=' :: ' ' :: '"' :: rest) := by
  obtain ⟨c, key, hkey⟩ := List.exists_cons_of_ne_nil line.key_ne_nil
  have bare : isBareKeyChar c := line.key_bare c (by simp [hkey])
  have space : ∀ c ∈ (" = \"".toList ++ rest).head?, isBareKeyChar c = false := by
    rintro _ ⟨⟩
    decide
  obtain ⟨run, after⟩ := Text.takeWhile_of_run line.key_bare space
  have part : readKeyPart? (line.key ++ (" = \"".toList ++ rest)) =
      some (String.ofList line.key, " = \"".toList ++ rest) := by
    rw [readKeyPart?_eq, run, after, keyPart?, if_neg line.key_ne_nil]
  have front : skipBlanks (line.key ++ (" = \"".toList ++ rest)) = line.key ++ (" = \"".toList ++ rest) := by
    rw [hkey, List.cons_append, skipBlanks_of_bare bare]
  rw [readKey?_succ, onBlanks, front, part, Option.bind_some]
  rfl

theorem lineFrom?_key (fuel : Nat) (reached : Reached) (rest : List Char) :
    lineFrom? (fuel + 1) reached (line.key ++ (" = \"".toList ++ rest)) =
      assignAt (fuel + 1) reached ([], String.ofList line.key) (' ' :: '"' :: rest) := by
  obtain ⟨c, key, hkey⟩ := List.exists_cons_of_ne_nil line.key_ne_nil
  have bare : isBareKeyChar c := line.key_bare c (by simp [hkey])
  have other : c ≠ '[' := by rintro rfl; exact absurd bare (by decide)
  have start : lineFrom? (fuel + 1) reached (line.key ++ (" = \"".toList ++ rest)) =
      (readKey? (fuel + 1) (line.key ++ (" = \"".toList ++ rest))).bind fun key =>
        onHead '=' (assignAt (fuel + 1) reached key.1) (fun _ => none) key.2 := by
    rw [hkey, List.cons_append, lineFrom?, onHead_of_ne other, afterLine?_of_bare bare,
      Option.isSome_none, if_neg Bool.false_ne_true]
  rw [start, readKey?_key, Option.bind_some, onHead_self]

theorem skipBlanks_text (raw after : List Char) :
    skipBlanks (line.text raw ++ after) =
      line.key ++ (" = \"".toList ++ (raw ++ '"' :: (line.back ++ after))) := by
  obtain ⟨c, key, hkey⟩ := List.exists_cons_of_ne_nil line.key_ne_nil
  have stop : ∀ d ∈ (line.key ++ (" = \"".toList ++ (raw ++ '"' :: (line.back ++ after)))).head?,
      isBlank d = false := by
    rw [hkey]
    rintro _ ⟨⟩
    exact isBlank_of_bare (line.key_bare c (by simp [hkey]))
  rw [text, front, skipBlanks]
  simp only [List.append_assoc, List.cons_append]
  exact (Text.takeWhile_of_run line.indent_blank stop).2

theorem assignAt_string (isString : IsString raw value) (other : rest.head? ≠ some '"') (fuel : Nat)
    (reached : Reached) (key : Key) :
    assignAt (fuel + 1) reached key (' ' :: '"' :: (raw ++ '"' :: rest)) =
      (reached.2.within (Members.assign (.text value) key.1 key.2) reached.1).bind fun root =>
        some ((reached.1, root), rest) := by
  have space : skipBlanks (' ' :: '"' :: (raw ++ '"' :: rest)) = '"' :: (raw ++ '"' :: rest) := rfl
  rw [assignAt, onBlanks, space, readValue?, isString.readString? other]
  rfl

theorem wholeLine?_text (isString : IsString raw value) (ends : EndsLine after) (fuel : Nat)
    (reached : Reached) :
    wholeLine? (fuel + 1) reached (line.text raw ++ after) =
      (reached.2.within (Members.assign (.text value) [] (String.ofList line.key)) reached.1).map fun root =>
        ((reached.1, root), withoutBreak after) := by
  rw [wholeLine?, line.skipBlanks_text, lineFrom?_key, assignAt_string isString (line.head_back ends)]
  dsimp only
  cases reached.2.within (Members.assign (.text value) [] (String.ofList line.key)) reached.1 with
  | none => rfl
  | some root =>
      rw [Option.bind_some, Option.bind_some, line.afterLine?_back ends]
      rfl

/-- A line that gives a key a string assigns to the key what the string stands for. -/
theorem reach?_text (isString : IsString raw value) (ends : EndsLine after) (reached : Reached) :
    reach? reached (line.text raw ++ after) =
      (reached.2.within (Members.assign (.text value) [] (String.ofList line.key)) reached.1).bind fun root =>
        reach? (reached.1, root) (withoutBreak after) := by
  have there : skipBlanks (line.text raw ++ after) ≠ [] := by
    rw [line.skipBlanks_text]
    simp
  have shorter : (withoutBreak after).length < (line.text raw ++ after).length := by
    have passes : Passes [] after (some (withoutBreak after)) (some (withoutBreak (after ++ []))) :=
      passes_withoutBreak after
    have after_shorter := (passes _ rfl).1.length_le
    rw [text]
    simp only [List.length_append, List.length_cons]
    omega
  have read := line.wholeLine?_text isString ends (2 * (line.text raw ++ after).length) reached
  cases assigned : reached.2.within (Members.assign (.text value) [] (String.ofList line.key)) reached.1 with
  | none =>
      rw [assigned] at read
      rw [reach?, reachFrom?, if_neg there, read]
      rfl
  | some root =>
      rw [assigned] at read
      exact reach?_line there read shorter

end StringLine

end UsageBoard.Toml
