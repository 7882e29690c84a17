import UsageBoard.Text.Parts

/-!
# Lines of a text

A text is cut at its line feeds into the lines that one ends and what follows the last one.  The cut
is the only one there is (`IsCut.unique`).
-/

namespace UsageBoard.Text

/-! ## Parts -/

theorem parts_ne_nil (separator : Char) (cs : List Char) : parts separator cs ≠ [] := by
  cases cs with
  | nil => nofun
  | cons c rest =>
      rw [parts]
      split
      · nofun
      · split <;> nofun

theorem parts_append (separator : Char) (cs rest : List Char) :
    parts separator (cs ++ separator :: rest) = parts separator cs ++ parts separator rest := by
  induction cs with
  | nil => simp [parts]
  | cons c cs ih =>
      rw [List.cons_append, parts, parts, ih]
      split
      · rfl
      · cases h : parts separator cs with
        | nil => exact absurd h (parts_ne_nil separator cs)
        | cons part others => rfl

theorem parts_of_notMem {separator : Char} {cs : List Char} (h : separator ∉ cs) :
    parts separator cs = [cs] := by
  induction cs with
  | nil => rfl
  | cons c cs ih =>
      rw [List.mem_cons, not_or] at h
      rw [parts, if_neg (Ne.symm h.1), ih h.2]

/-! ## Carriage returns -/

theorem withoutReturn_concat (line : List Char) : withoutReturn (line ++ ['\r']) = line := by
  simp [withoutReturn]

theorem withoutReturn_append {back : List Char} (there : back ≠ []) (free : '\r' ∉ back)
    (front : List Char) : withoutReturn (front ++ back) = front ++ back := by
  have last : (front ++ back).getLast? = some (back.getLast there) := by
    rw [List.getLast?_append, List.getLast?_eq_some_getLast there, Option.some_or]
  have other : back.getLast there ≠ '\r' := fun same => free (same ▸ List.getLast_mem there)
  rw [withoutReturn, last, if_neg (by simpa using other)]

/-! ## Cuts -/

/-- A text as the lines that a line feed ends, and what follows the last line feed. -/
structure IsCut (cs : List Char) (ended : List (List Char)) (last : List Char) : Prop where
  text : cs = (ended.flatMap fun line => line ++ ['\n']) ++ last
  ended_free : ∀ line ∈ ended, '\n' ∉ line
  last_free : '\n' ∉ last

theorem IsCut.parts_eq {cs last : List Char} {ended : List (List Char)} (cut : IsCut cs ended last) :
    parts '\n' cs = ended ++ [last] := by
  obtain ⟨rfl, ended_free, last_free⟩ := cut
  induction ended with
  | nil => exact parts_of_notMem last_free
  | cons line ended ih =>
      obtain ⟨line_free, others⟩ := List.forall_mem_cons.mp ended_free
      rw [List.flatMap_cons, List.append_assoc, List.append_assoc, List.singleton_append, parts_append,
        parts_of_notMem line_free, ih others]
      rfl

theorem IsCut.cons {line cs last : List Char} {ended : List (List Char)} (cut : IsCut cs ended last)
    (free : '\n' ∉ line) : IsCut (line ++ '\n' :: cs) (line :: ended) last where
  text := by simp [cut.text]
  ended_free := List.forall_mem_cons.mpr ⟨free, cut.ended_free⟩
  last_free := cut.last_free

theorem exists_isCut (cs : List Char) : ∃ ended last, IsCut cs ended last := by
  induction cs with
  | nil => exact ⟨[], [], rfl, nofun, nofun⟩
  | cons c cs ih =>
      obtain ⟨ended, last, cut⟩ := ih
      by_cases hc : c = '\n'
      · subst hc
        have first : IsCut ([] ++ '\n' :: cs) ([] :: ended) last := cut.cons List.not_mem_nil
        exact ⟨[] :: ended, last, first⟩
      · obtain ⟨text, ended_free, last_free⟩ := cut
        cases ended with
        | nil => exact ⟨[], c :: last, by simp [text], nofun, by simp [Ne.symm hc, last_free]⟩
        | cons line ended =>
            obtain ⟨line_free, others⟩ := List.forall_mem_cons.mp ended_free
            refine ⟨(c :: line) :: ended, last, by simp [text], ?_, last_free⟩
            exact List.forall_mem_cons.mpr ⟨by simp [Ne.symm hc, line_free], others⟩

theorem IsCut.unique {cs last other : List Char} {ended others : List (List Char)}
    (cut : IsCut cs ended last) (second : IsCut cs others other) : ended = others ∧ last = other := by
  have same : ended ++ [last] = others ++ [other] := cut.parts_eq.symm.trans second.parts_eq
  obtain ⟨hended, hlast⟩ := List.append_inj' same rfl
  exact ⟨hended, List.cons.inj hlast |>.1⟩

theorem IsCut.lines_eq {cs last : List Char} {ended : List (List Char)} (cut : IsCut cs ended last) :
    lines cs = ended.map withoutReturn ++ [last] := by
  rw [lines, cut.parts_eq]
  simp

theorem IsCut.append {cs rest last : List Char} {ended others : List (List Char)}
    (cut : IsCut cs ended []) (second : IsCut rest others last) :
    IsCut (cs ++ rest) (ended ++ others) last where
  text := by simp [cut.text, second.text]
  ended_free := List.forall_mem_append.mpr ⟨cut.ended_free, second.ended_free⟩
  last_free := second.last_free

theorem lines_of_notMem {cs : List Char} (free : '\n' ∉ cs) : lines cs = [cs] := by
  have cut : IsCut cs [] cs := ⟨rfl, nofun, free⟩
  exact cut.lines_eq

theorem lines_append_feed {line : List Char} (free : '\n' ∉ line) (rest : List Char) :
    lines (line ++ '\n' :: rest) = withoutReturn line :: lines rest := by
  obtain ⟨ended, last, cut⟩ := exists_isCut rest
  rw [(cut.cons free).lines_eq, cut.lines_eq]
  rfl

theorem lines_ne_nil (cs : List Char) : lines cs ≠ [] := by
  obtain ⟨ended, last, cut⟩ := exists_isCut cs
  rw [cut.lines_eq]
  simp

/-- A text ends in a line feed just if nothing follows its last one. -/
theorem IsCut.getLast?_eq_iff {cs last : List Char} {ended : List (List Char)}
    (cut : IsCut cs ended last) : cs.getLast? = some '\n' ↔ ended ≠ [] ∧ last = [] := by
  obtain ⟨rfl, -, last_free⟩ := cut
  rcases List.eq_nil_or_concat last with rfl | ⟨last, c, rfl⟩
  · rcases List.eq_nil_or_concat ended with rfl | ⟨ended, line, rfl⟩ <;> simp
  · have hc : c ≠ '\n' := by
      rintro rfl
      exact last_free (by simp)
    simp [hc]

/-! ## Joining -/

theorem join_cons (line : List Char) {lines : List (List Char)} (more : lines ≠ []) :
    join '\n' (line :: lines) = line ++ '\n' :: join '\n' lines := by
  rw [join, List.intercalate_cons_of_ne_nil more, List.append_assoc]
  rfl

theorem join_concat (lines : List (List Char)) (last : List Char) :
    join '\n' (lines ++ [last]) = (lines.flatMap fun line => line ++ ['\n']) ++ last := by
  induction lines with
  | nil => simp [join]
  | cons line lines ih =>
      rw [List.cons_append, join_cons line (by simp), ih]
      simp

/-- An empty last line stands for a line feed at the end. -/
theorem join_concat_nil (lines : List (List Char)) :
    join '\n' (lines ++ [[]]) = join '\n' lines ++ if lines = [] then [] else ['\n'] := by
  rcases List.eq_nil_or_concat lines with rfl | ⟨lines, line, rfl⟩
  · rfl
  · rw [List.concat_eq_append, join_concat, join_concat]
    simp

theorem join_middle (above : List (List Char)) (line : List Char) (below : List (List Char)) :
    join '\n' (above ++ line :: below) =
      (above.flatMap fun other => other ++ ['\n']) ++ (line ++ below.flatMap ('\n' :: ·)) := by
  induction below generalizing above line with
  | nil => simp [join_concat]
  | cons next below ih =>
      rw [List.append_cons, ih (above ++ [line]) next]
      simp

/-- A text that ends in a line feed still does after its lines were joined again. -/
theorem getLast?_join_lines {cs : List Char} (ended : cs.getLast? = some '\n') :
    (join '\n' (lines cs)).getLast? = some '\n' := by
  obtain ⟨lines, last, cut⟩ := exists_isCut cs
  obtain ⟨there, rfl⟩ := cut.getLast?_eq_iff.mp ended
  rw [cut.lines_eq, join_concat_nil, if_neg (by simpa using there), List.getLast?_concat]

end UsageBoard.Text
