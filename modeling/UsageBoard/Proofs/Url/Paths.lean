import Mathlib.Data.List.DropRight
import UsageBoard.Url.Parser

/-!
# Paths of addresses

A path that goes on after a slash is read part by part, so that what comes first is read as it is on
its own, except that a point or an empty part at its end leaves no slash.

## Main statements

* `follow_append`, `follow_of_plain`: what comes later does not change what came before.
* `pathText_append`: a path with plain parts after it.
* `exists_slashes_pathText`: the same path without them.
-/

namespace UsageBoard.Url

/-! ## Parts -/

theorem isSlash_slash (special : Bool) : isSlash special '/' = true := rfl

theorem segments_ne_nil (special : Bool) (cs : List Char) : segments special cs ≠ [] := by
  cases cs with
  | nil => simp [segments]
  | cons c cs =>
      rw [segments]
      split
      · simp
      · split <;> simp

theorem segments_cons_slash (special : Bool) (cs : List Char) :
    segments special ('/' :: cs) = [] :: segments special cs := by
  rw [segments, if_pos (isSlash_slash special)]

theorem segments_append (special : Bool) (cs rest : List Char) :
    segments special (cs ++ '/' :: rest) = segments special cs ++ segments special rest := by
  induction cs with
  | nil => exact segments_cons_slash special rest
  | cons c cs ih =>
      rw [List.cons_append, segments, segments, ih]
      split
      · rfl
      · cases h : segments special cs with
        | nil => exact absurd h (segments_ne_nil special cs)
        | cons part others => rfl

theorem segments_append_of_no_slash {special : Bool} {more : List Char}
    (solid : ∀ c ∈ more, isSlash special c = false) (cs : List Char) :
    ∃ parts last, segments special cs = parts ++ [last] ∧
      segments special (cs ++ more) = parts ++ [last ++ more] := by
  induction cs with
  | nil =>
      refine ⟨[], [], rfl, ?_⟩
      induction more with
      | nil => rfl
      | cons c more ih =>
          obtain ⟨first, others⟩ := List.forall_mem_cons.mp solid
          have rest : segments special more = [more] := ih others
          rw [List.nil_append, segments, first, rest]
          rfl
  | cons c cs ih =>
      obtain ⟨parts, last, hcs, hmore⟩ := ih
      rw [List.cons_append, segments, segments, hcs, hmore]
      split
      · exact ⟨[] :: parts, last, rfl, rfl⟩
      · cases parts with
        | nil => exact ⟨[], c :: last, rfl, rfl⟩
        | cons part parts => exact ⟨(c :: part) :: parts, last, rfl, rfl⟩

/-! ## Points -/

def IsPoint (part : List Char) : Prop := withPoints part = twoPoints ∨ withPoints part = onePoint

instance (part : List Char) : Decidable (IsPoint part) := instDecidableOr

/-- The parts after one more has been followed, in reverse. -/
def turn (before : List (List Char)) (part : List Char) : List (List Char) :=
  if withPoints part = twoPoints then before.drop 1
  else if withPoints part = onePoint then before
  else part :: before

theorem turn_of_not_isPoint {part : List Char} (plain : ¬IsPoint part) (before : List (List Char)) :
    turn before part = part :: before := by
  rw [turn, if_neg fun two => plain (.inl two), if_neg fun one => plain (.inr one)]

theorem follow_cons (before parts : List (List Char)) (part : List Char) :
    follow before (part :: parts) =
      follow (if IsPoint part ∧ parts.isEmpty then [] :: turn before part else turn before part) parts :=
  rfl

theorem follow_append {more : List (List Char)} (some_more : more ≠ []) (before parts : List (List Char)) :
    follow before (parts ++ more) = follow (parts.foldl turn before) more := by
  induction parts generalizing before with
  | nil => rfl
  | cons part parts ih =>
      have goesOn : ¬(IsPoint part ∧ (parts ++ more).isEmpty = true) := by
        simp [some_more]
      rw [List.cons_append, follow_cons, if_neg goesOn, ih, List.foldl_cons]

theorem follow_of_plain {parts : List (List Char)} (plain : ∀ part ∈ parts, ¬IsPoint part)
    (before : List (List Char)) : follow before parts = before.reverse ++ parts := by
  induction parts generalizing before with
  | nil => simp [follow]
  | cons part parts ih =>
      obtain ⟨first, others⟩ := List.forall_mem_cons.mp plain
      rw [follow_cons, if_neg fun point => first point.1, turn_of_not_isPoint first, ih others,
        List.reverse_cons, List.append_assoc, List.singleton_append]

theorem follow_concat (before parts : List (List Char)) (last : List Char) :
    follow before (parts ++ [last]) =
      ((parts ++ [last]).foldl turn before).reverse ++ if IsPoint last then [[]] else [] := by
  rw [follow_append (by simp), follow_cons, List.foldl_append]
  by_cases point : IsPoint last
  · simp [point, follow]
  · simp [point, follow]

/-! ## The text of a path -/

/-- Parts with a slash in front of each. -/
def written (parts : List (List Char)) : List Char := parts.flatMap ('/' :: ·)

theorem written_append (parts more : List (List Char)) :
    written (parts ++ more) = written parts ++ written more :=
  List.flatMap_append

/-- The parts of a path of the net as they are followed. -/
def partsOf (cs : List Char) : List (List Char) := (segments true cs).map (encode inPath)

theorem pathText_eq (cs : List Char) : pathText true cs = String.ofList (written (follow [] (partsOf cs))) :=
  rfl

/-- The text of a path of the net once it has been followed; a point at its end leaves nothing. -/
def stem : List Char → List Char
  | [] => []
  | _ :: cs => written ((partsOf cs).foldl turn []).reverse

/-- A character of a path that is written as it is and is no point. -/
def isPlain (c : Char) : Bool := (decide ('a' ≤ c) && decide (c ≤ 'z')) || c == '_' || c == '/'

/-- What holds of the plain characters among the first 128 holds of all. -/
theorem forall_isPlain {property : Char → Prop}
    (small : ∀ n < 128, isPlain (Char.ofNat n) → property (Char.ofNat n)) :
    ∀ c, isPlain c → property c := by
  intro c plain
  have bound : c.toNat < 128 := by
    simp only [isPlain, Bool.or_eq_true, Bool.and_eq_true, decide_eq_true_eq, beq_iff_eq] at plain
    rcases plain with (⟨-, upper⟩ | rfl) | rfl
    · exact Nat.lt_of_le_of_lt (UInt32.le_iff_toNat_le.mp upper) (by decide)
    · decide
    · decide
  have same := small c.toNat bound
  rw [Char.ofNat_toNat] at same
  exact same plain

theorem encode_of_isPlain {cs : List Char} (plain : ∀ c ∈ cs, isPlain c) : encode inPath cs = cs := by
  have unchanged : ∀ c, isPlain c → (inPath c || decide (0x80 ≤ c.toNat)) = false :=
    forall_isPlain (by decide)
  induction cs with
  | nil => rfl
  | cons c cs ih =>
      obtain ⟨first, others⟩ := List.forall_mem_cons.mp plain
      rw [encode, List.flatMap_cons, unchanged c first]
      exact congrArg (c :: ·) (ih others)

theorem withPoints_of_isPlain {cs : List Char} (plain : ∀ c ∈ cs, isPlain c) : withPoints cs = cs := by
  induction cs with
  | nil => rfl
  | cons c cs ih =>
      obtain ⟨first, others⟩ := List.forall_mem_cons.mp plain
      have noPercent : ∀ c, isPlain c → c ≠ '%' := forall_isPlain (by decide)
      rw [withPoints, ih others]
      · exact fun _ percent _ => noPercent c first percent
      · exact fun _ percent _ => noPercent c first percent

theorem not_isPoint_of_isPlain {cs : List Char} (plain : ∀ c ∈ cs, isPlain c) : ¬IsPoint cs := by
  rw [IsPoint, withPoints_of_isPlain plain]
  rintro (rfl | rfl)
  · exact absurd (plain '.' (by decide)) (by decide)
  · exact absurd (plain '.' (by decide)) (by decide)

theorem segments_of_isPlain {cs : List Char} (plain : ∀ c ∈ cs, isPlain c) :
    written (segments true cs) = '/' :: cs ∧ ∀ part ∈ segments true cs, ∀ c ∈ part, isPlain c := by
  have slash : ∀ c, isPlain c → isSlash true c = true → c = '/' := forall_isPlain (by decide)
  induction cs with
  | nil => exact ⟨rfl, by simp [segments]⟩
  | cons c cs ih =>
      obtain ⟨first, others⟩ := List.forall_mem_cons.mp plain
      obtain ⟨text, parts⟩ := ih others
      rw [segments]
      split
      · rename_i hslash
        obtain rfl := slash c first hslash
        refine ⟨congrArg ('/' :: ·) text, ?_⟩
        exact List.forall_mem_cons.mpr ⟨by simp, parts⟩
      · cases h : segments true cs with
        | nil => exact absurd h (segments_ne_nil true cs)
        | cons part rest =>
            rw [h] at text parts
            obtain ⟨hpart, hrest⟩ := List.forall_mem_cons.mp parts
            refine ⟨?_, List.forall_mem_cons.mpr ⟨List.forall_mem_cons.mpr ⟨first, hpart⟩, hrest⟩⟩
            have tail : part ++ written rest = cs := List.tail_eq_of_cons_eq text
            exact congrArg ('/' :: c :: ·) tail

theorem partsOf_of_isPlain {cs : List Char} (plain : ∀ c ∈ cs, isPlain c) :
    partsOf cs = segments true cs := by
  obtain ⟨-, parts⟩ := segments_of_isPlain plain
  calc partsOf cs = (segments true cs).map id :=
        List.map_congr_left fun part hpart => encode_of_isPlain (parts part hpart)
    _ = segments true cs := List.map_id _

theorem pathText_append (path : List Char) {more : List Char} (plain : ∀ c ∈ more, isPlain c) :
    pathText true ((path ++ '/' :: more).drop 1) = String.ofList (stem path ++ '/' :: more) := by
  obtain ⟨text, parts⟩ := segments_of_isPlain plain
  rw [← partsOf_of_isPlain plain] at text parts
  have unturned : ∀ part ∈ partsOf more, ¬IsPoint part := fun part hpart =>
    not_isPoint_of_isPlain (parts part hpart)
  cases path with
  | nil =>
      rw [List.nil_append, List.drop_one, List.tail_cons, pathText_eq, follow_of_plain unturned,
        List.reverse_nil, List.nil_append, text]
      rfl
  | cons slash path =>
      have split : partsOf (path ++ '/' :: more) = partsOf path ++ partsOf more := by
        rw [partsOf, segments_append, List.map_append]
        rfl
      have some_more : partsOf more ≠ [] := by simp [partsOf, segments_ne_nil]
      rw [List.cons_append, List.drop_one, List.tail_cons, pathText_eq, split, follow_append some_more,
        follow_of_plain unturned, written_append, text]
      rfl

/-- With nothing but slashes after it, a path has nothing but slashes after its stem. -/
theorem exists_slashes_pathText (path : List Char) {slashes : List Char} (h : ∀ c ∈ slashes, c = '/') :
    ∃ others : List Char, (∀ c ∈ others, c = '/') ∧
      pathText true ((path ++ slashes).drop 1) = String.ofList (stem path ++ others) := by
  cases slashes with
  | cons slash slashes =>
      obtain ⟨rfl, rest⟩ := List.forall_mem_cons.mp h
      refine ⟨'/' :: slashes, h, pathText_append path ?_⟩
      intro c hc
      rw [rest c hc]
      rfl
  | nil =>
      cases path with
      | nil => exact ⟨['/'], by simp, rfl⟩
      | cons slash path =>
          obtain ⟨parts, last, hparts⟩ : ∃ parts last, partsOf path = parts ++ [last] :=
            ⟨_, _, (List.dropLast_append_getLast (by simp [partsOf, segments_ne_nil])).symm⟩
          rw [List.append_nil, List.drop_one, List.tail_cons, pathText_eq, stem, hparts, follow_concat,
            written_append]
          by_cases point : IsPoint last
          · exact ⟨['/'], by simp, by simp [point, written]⟩
          · exact ⟨[], by simp, by simp [point, written]⟩

/-! ## Padding -/

/-- A character that does not count at the ends of an address. -/
def isPad (c : Char) : Bool := decide (c.toNat ≤ 0x20)

theorem forall_isPad {property : Char → Prop} (small : ∀ n < 33, property (Char.ofNat n)) :
    ∀ c, isPad c → property c := by
  intro c pad
  have same := small c.toNat (Nat.lt_succ_of_le (of_decide_eq_true pad))
  rwa [Char.ofNat_toNat] at same

theorem encode_append (test : Char → Bool) (cs more : List Char) :
    encode test (cs ++ more) = encode test cs ++ encode test more :=
  List.flatMap_append

theorem withPoints_append_percent (cs more : List Char) :
    withPoints (cs ++ '%' :: more) = withPoints cs ++ withPoints ('%' :: more) := by
  induction cs using withPoints.induct with
  | case1 rest ih => exact congrArg ('.' :: ·) ih
  | case2 rest ih => exact congrArg ('.' :: ·) ih
  | case3 c rest small capital ih =>
      rw [List.cons_append, withPoints, withPoints, ih]
      · rfl
      · exact small
      · exact capital
      · rintro others rfl hrest
        rcases rest with _ | ⟨d, _ | ⟨e, rest⟩⟩ <;> simp_all
      · rintro others rfl hrest
        rcases rest with _ | ⟨d, _ | ⟨e, rest⟩⟩ <;> simp_all
  | case4 => rfl

/-- In a path padding is written in three characters, and not as a point. -/
theorem encode_pad : ∀ c, isPad c → (encode inPath [c]).head? = some '%' ∧
    (encode inPath [c]).length = 3 ∧ withPoints (encode inPath [c]) = encode inPath [c] :=
  forall_isPad (by decide +kernel)

theorem not_isPoint_append {pads : List Char} (some_pad : pads ≠ []) (padding : ∀ c ∈ pads, isPad c)
    (part : List Char) : ¬IsPoint (part ++ encode inPath pads) := by
  obtain ⟨percent, length, kept⟩ := encode_pad _ (padding _ (List.getLast_mem some_pad))
  obtain ⟨digits, hdigits⟩ := List.head?_eq_some_iff.mp percent
  have long : 3 ≤ (withPoints (part ++ encode inPath pads)).length := by
    rw [← List.dropLast_append_getLast some_pad, encode_append, ← List.append_assoc, hdigits,
      withPoints_append_percent, ← hdigits, kept, List.length_append, length]
    exact Nat.le_add_left 3 _
  rintro (point | point) <;> rw [point] at long <;> exact absurd long (by decide)

theorem length_written_turn_le (before : List (List Char)) (part : List Char) :
    (written (turn before part).reverse).length ≤ (written before.reverse).length + part.length + 1 := by
  unfold turn
  split
  · cases before with
    | nil => exact Nat.zero_le _
    | cons last before =>
        rw [List.drop_one, List.tail_cons, List.reverse_cons, written_append, List.length_append]
        omega
  · split
    · omega
    · rw [List.reverse_cons, written_append, List.length_append]
      simp [written]
      omega

theorem length_stem_lt {path pads : List Char} (some_path : path ≠ []) (some_pad : pads ≠ [])
    (padding : ∀ c ∈ pads, isPad c) : (stem path).length < (stem (path ++ pads)).length := by
  obtain ⟨slash, path, rfl⟩ := List.exists_cons_of_ne_nil some_path
  have solid : ∀ c, isPad c → isSlash true c = false := forall_isPad (by decide)
  obtain ⟨parts, last, hpath, hpads⟩ :=
    segments_append_of_no_slash (fun c hc => solid c (padding c hc)) path
  have first : partsOf path = parts.map (encode inPath) ++ [encode inPath last] := by
    rw [partsOf, hpath, List.map_append]
    rfl
  have second : partsOf (path ++ pads) =
      parts.map (encode inPath) ++ [encode inPath last ++ encode inPath pads] := by
    rw [partsOf, hpads, List.map_append, ← encode_append]
    rfl
  have bound := length_written_turn_le ((parts.map (encode inPath)).foldl turn []) (encode inPath last)
  have longer : 0 < (encode inPath pads).length := by
    obtain ⟨-, length, -⟩ := encode_pad _ (padding _ (List.getLast_mem some_pad))
    rw [← List.dropLast_append_getLast some_pad, encode_append, List.length_append, length]
    omega
  rw [List.cons_append, stem, stem, first, second, List.foldl_append, List.foldl_append,
    List.foldl_cons, List.foldl_nil, List.foldl_cons, List.foldl_nil,
    turn_of_not_isPoint (not_isPoint_append some_pad padding _), List.reverse_cons, written_append,
    List.length_append]
  simp only [written, List.flatMap_singleton, List.length_cons, List.length_append] at bound ⊢
  omega

end UsageBoard.Url
