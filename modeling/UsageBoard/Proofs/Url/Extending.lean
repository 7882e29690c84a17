import UsageBoard.Backend.Client
import UsageBoard.Proofs.Url.Joining

/-!
# Addresses that can be extended

The text of an address of the web, without the slashes at its end, and a plain path after it are read as
the same address with a longer path just if the address can be extended.

## Main statements

* `exists_parts`: which characters of an address count, alone and with a path after it.
* `parse_of_extends`, `extends_of_parse`: when the path goes on where the address ends.
-/

namespace UsageBoard.Url

open UsageBoard.Backend (Client)

/-- The characters of an address that count in front of a path. -/
def base (text : String) : List Char :=
  ((stripped text.toList).dropWhile isPad).filter isKept

/-- An address that has no query and no fragment, no padding that is left at its end, and no slash that
is left at the end of its path. -/
structure Extends (text : String) : Prop where
  ended : ∀ c ∈ text.toList, endsPath c = false
  unpadded : ∀ c, (text.toList.filter isKept).getLast? = some c → isPad c = false
  closed : (stem (pathPart (base text))).getLast? ≠ some '/'

/-- A path of plain characters with a name in it. -/
structure IsPlainPath (path : String) : Prop where
  start : path.toList.head? = some '/'
  plain : ∀ c ∈ path.toList, isPlain c
  named : ∃ c ∈ path.toList, c ≠ '/'

theorem IsPlainPath.exists_cons {path : String} (h : IsPlainPath path) :
    ∃ more, path.toList = '/' :: more ∧ (∀ c ∈ more, isPlain c) ∧ ∃ c ∈ more, c ≠ '/' := by
  obtain ⟨more, hmore⟩ := List.head?_eq_some_iff.mp h.start
  obtain ⟨c, hc, noSlash⟩ := h.named
  have plain := h.plain
  rw [hmore] at hc plain
  refine ⟨more, hmore, (List.forall_mem_cons.mp plain).2, c, ?_, noSlash⟩
  exact (List.mem_cons.mp hc).resolve_left noSlash

theorem toList_withoutSlashes (text : String) :
    (Client.withoutSlashes text).toList = stripped text.toList := by
  rw [Client.withoutSlashes, String.toList_ofList]
  rfl

theorem withoutSlashes_append (prefixed path : String) :
    Client.withoutSlashes prefixed ++ path = String.ofList (stripped prefixed.toList ++ path.toList) := by
  rw [String.ofList_append, String.ofList_toList]
  rfl

theorem trimBy_eq_rdropWhile (cs : List Char) :
    Text.trimBy isPad cs = (cs.dropWhile isPad).rdropWhile isPad :=
  rfl

theorem isPad_of_not_isKept {c : Char} (dropped : isKept c = false) : isPad c = true := by
  have either : (c = '\t' ∨ c = '\n') ∨ c = '\r' := by
    simpa [isKept, or_assoc, imp_iff_not_or] using dropped
  rcases either with (rfl | rfl) | rfl <;> rfl

theorem isKept_of_not_isPad {c : Char} (solid : isPad c = false) : isKept c = true := by
  by_contra dropped
  rw [isPad_of_not_isKept (by simpa using dropped)] at solid
  cases solid

/-- A text as padding, what is not padding at first, and slashes. -/
structure IsCut (text front body slashes : List Char) : Prop where
  eq : text = front ++ (body ++ slashes)
  front_pads : ∀ c ∈ front, isPad c
  only_slashes : ∀ c ∈ slashes, c = '/'
  some_body : body ≠ []
  stripped_eq : (stripped text).dropWhile isPad = body
  trimmed_eq : text.dropWhile isPad = body ++ slashes

theorem exists_isCut {text : List Char} {c : Char} (there : c ∈ text) (solid : isPad c = false)
    (noSlash : c ≠ '/') : ∃ front body slashes, IsCut text front body slashes := by
  obtain ⟨slashes, only_slashes, htext⟩ := exists_slashes_stripped text
  have some_body : (stripped text).dropWhile isPad ≠ [] := by
    rw [Ne, List.dropWhile_eq_nil_iff]
    intro all
    rw [htext] at there
    rcases List.mem_append.mp there with hc | hc
    · exact absurd (all c hc) (by simp [solid])
    · exact noSlash (only_slashes c hc)
  refine ⟨(stripped text).takeWhile isPad, (stripped text).dropWhile isPad, slashes, ?_⟩
  constructor
  · rw [← List.append_assoc, List.takeWhile_append_dropWhile, ← htext]
  · exact fun d hd => List.mem_takeWhile_imp hd
  · exact only_slashes
  · exact some_body
  · rfl
  · conv_lhs => rw [htext]
    rw [List.dropWhile_append, if_neg (by simpa using some_body)]

theorem endsPath_cases {c : Char} (ends : endsPath c = true) :
    isPad c = false ∧ c ≠ '/' ∧ isKept c = true := by
  have either : c = '?' ∨ c = '#' := by simpa [endsPath] using ends
  rcases either with rfl | rfl <;> decide

namespace IsCut

variable {text : String} {front body slashes : List Char} (cut : IsCut text.toList front body slashes)

include cut

theorem mem_iff {c : Char} (ends : endsPath c = true) : c ∈ text.toList ↔ c ∈ body := by
  obtain ⟨solid, noSlash, -⟩ := endsPath_cases ends
  rw [cut.eq, List.mem_append, List.mem_append]
  constructor
  · rintro (hc | hc | hc)
    · exact absurd (cut.front_pads c hc) (by simp [solid])
    · exact hc
    · exact absurd (cut.only_slashes c hc) noSlash
  · exact fun hc => .inr (.inl hc)

theorem filter_isKept_text (more : List Char) (hmore : body ++ slashes = more) :
    text.toList.filter isKept = front.filter isKept ++ more.filter isKept := by
  rw [cut.eq, hmore, List.filter_append]

/-- Without slashes at the end, what counts of an address alone ends in a character that is no
padding. -/
theorem exists_last : ∃ others last, body.rdropWhile isPad = others ++ [last] ∧ isPad last = false := by
  have some_rest : body.rdropWhile isPad ≠ [] := by
    rw [Ne, List.rdropWhile_eq_nil_iff]
    intro all
    have some_base : (stripped text.toList).dropWhile isPad ≠ [] := cut.stripped_eq ▸ cut.some_body
    have first := List.head_dropWhile_not isPad some_base
    have mem : ((stripped text.toList).dropWhile isPad).head some_base ∈ body := by
      simp only [cut.stripped_eq, List.head_mem]
    rw [all _ mem] at first
    cases first
  refine ⟨_, _, (List.dropLast_append_getLast some_rest).symm, ?_⟩
  simpa using List.rdropWhile_last_not isPad body some_rest

end IsCut

section

variable [DomainNames]

/-- What counts of an address is the same alone and in front of a path, but for slashes at its end if it
is alone, or padding if it is not. -/
structure HasParts (text : String) (url : Url) (cs slashes pads : List Char) : Prop where
  only_slashes : ∀ c ∈ slashes, c = '/'
  padding : ∀ c ∈ pads, isPad c
  read : parseKept (cs ++ slashes) = .ok url
  some_base : (stripped text.toList).dropWhile isPad ≠ []
  base_eq : base text = cs ++ pads
  unpadded : pads = [] ↔ ∀ c, (text.toList.filter isKept).getLast? = some c → isPad c = false
  ends : ∀ c, endsPath c = true → (c ∈ text.toList ↔ c ∈ cs)

namespace IsCut

variable {text : String} {url : Url} {front body slashes : List Char}
  (cut : IsCut text.toList front body slashes)

include cut

theorem hasParts_of_slash
    (read : parseKept (((body ++ slashes).rdropWhile isPad).filter isKept) = .ok url)
    (some_slash : slashes ≠ []) : HasParts text url (body.filter isKept) slashes [] := by
  have whole : (body ++ slashes).rdropWhile isPad = body ++ slashes := by
    rw [List.rdropWhile_eq_self_iff]
    intro _
    rw [List.getLast_append_of_ne_nil _ some_slash, cut.only_slashes _ (List.getLast_mem some_slash)]
    decide
  have kept : slashes.filter isKept = slashes := by
    rw [List.filter_eq_self]
    intro c hc
    rw [cut.only_slashes c hc]
    rfl
  have last : (text.toList.filter isKept).getLast? = some '/' := by
    rw [cut.filter_isKept_text _ rfl, List.filter_append, kept, ← List.append_assoc,
      List.getLast?_append_of_ne_nil _ some_slash, List.getLast?_eq_some_getLast some_slash,
      cut.only_slashes _ (List.getLast_mem some_slash)]
  rw [whole, List.filter_append, kept] at read
  refine ⟨cut.only_slashes, by simp, read, cut.stripped_eq ▸ cut.some_body, ?_, ?_, ?_⟩
  · rw [base, cut.stripped_eq, List.append_nil]
  · refine iff_of_true rfl ?_
    intro c hc
    rw [last] at hc
    rw [← Option.some.inj hc]
    rfl
  · intro c ends
    rw [cut.mem_iff ends, List.mem_filter]
    exact (and_iff_left (endsPath_cases ends).2.2).symm

theorem hasParts_of_no_slash (read : parseKept ((body.rdropWhile isPad).filter isKept) = .ok url)
    (no_slash : slashes = []) :
    HasParts text url ((body.rdropWhile isPad).filter isKept) []
      ((body.rtakeWhile isPad).filter isKept) := by
  have hbody : body.filter isKept =
      (body.rdropWhile isPad).filter isKept ++ (body.rtakeWhile isPad).filter isKept := by
    rw [← List.filter_append, List.rdropWhile_append_rtakeWhile]
  have padding : ∀ c ∈ (body.rtakeWhile isPad).filter isKept, isPad c := by
    intro c hc
    exact List.mem_rtakeWhile_imp (List.mem_of_mem_filter hc)
  obtain ⟨others, last, hrest, solid⟩ := cut.exists_last
  refine ⟨by simp, padding, by rwa [List.append_nil], cut.stripped_eq ▸ cut.some_body, ?_, ?_, ?_⟩
  · rw [base, cut.stripped_eq, hbody]
  · rw [cut.filter_isKept_text body (by rw [no_slash, List.append_nil]), hbody, hrest,
      List.filter_append, List.filter_cons_of_pos (isKept_of_not_isPad solid), List.filter_nil]
    constructor
    · intro no_pad c hc
      rw [no_pad, List.append_nil, ← List.append_assoc, List.getLast?_concat] at hc
      rwa [← Option.some.inj hc]
    · intro unpadded
      by_contra some_pad
      have ending := padding _ (List.getLast_mem some_pad)
      rw [unpadded _ ?_] at ending
      · cases ending
      · rw [← List.append_assoc, List.getLast?_append_of_ne_nil _ some_pad,
          List.getLast?_eq_some_getLast some_pad]
  · intro c ends
    obtain ⟨not_pad, -, kept⟩ := endsPath_cases ends
    rw [cut.mem_iff ends, List.mem_filter]
    constructor
    · intro hc
      rw [← List.rdropWhile_append_rtakeWhile (p := isPad) (l := body)] at hc
      rcases List.mem_append.mp hc with hc | hc
      · exact ⟨hc, kept⟩
      · exact absurd (List.mem_rtakeWhile_imp hc) (by simp [not_pad])
    · exact fun hc => (List.rdropWhile_prefix isPad body).subset hc.1

end IsCut

theorem exists_parts {text : String} {url : Url} (read : parse text = .ok url) :
    ∃ cs slashes pads, HasParts text url cs slashes pads := by
  rw [parse_eq, trimBy_eq_rdropWhile] at read
  have colon : ':' ∈ text.toList := by
    obtain ⟨rest, named⟩ := exists_scheme read
    obtain ⟨name, hname, -⟩ := exists_name named
    have kept : ':' ∈ ((text.toList.dropWhile isPad).rdropWhile isPad).filter isKept := by
      rw [hname]
      exact List.mem_append_right name List.mem_cons_self
    exact (List.dropWhile_suffix isPad).subset
      ((List.rdropWhile_prefix isPad _).subset (List.mem_of_mem_filter kept))
  obtain ⟨front, body, slashes, cut⟩ := exists_isCut colon (by decide) (by decide)
  rw [cut.trimmed_eq] at read
  by_cases some_slash : slashes = []
  · rw [some_slash, List.append_nil] at read
    exact ⟨_, _, _, cut.hasParts_of_no_slash read some_slash⟩
  · exact ⟨_, _, _, cut.hasParts_of_slash read some_slash⟩

theorem parse_append {text : String} (some_base : (stripped text.toList).dropWhile isPad ≠ [])
    {path : String} (h : IsPlainPath path) :
    parse (Client.withoutSlashes text ++ path) = parseKept (base text ++ path.toList) := by
  have solid : ∀ c, isPlain c → isPad c = false ∧ isKept c = true := forall_isPlain (by decide)
  obtain ⟨more, hmore, -⟩ := h.exists_cons
  have whole : ((stripped text.toList).dropWhile isPad ++ path.toList).rdropWhile isPad =
      (stripped text.toList).dropWhile isPad ++ path.toList := by
    rw [List.rdropWhile_eq_self_iff]
    intro _
    have some_path : path.toList ≠ [] := by simp [hmore]
    rw [List.getLast_append_of_ne_nil _ some_path, (solid _ (h.plain _ (List.getLast_mem some_path))).1]
    decide
  have kept : path.toList.filter isKept = path.toList := by
    rw [List.filter_eq_self]
    exact fun c hc => (solid c (h.plain c hc)).2
  rw [parse_eq, String.toList_append, toList_withoutSlashes, trimBy_eq_rdropWhile,
    List.dropWhile_append, if_neg (by simpa using some_base), whole, List.filter_append, kept]
  rfl

theorem HasParts.extends_iff {text : String} {url : Url} {cs slashes pads lead front tail : List Char}
    (parts : HasParts text url cs slashes pads) (split : IsSplit url.scheme cs lead front tail)
    (path : pathPart cs = tail) :
    Extends text ↔
      (∀ c ∈ tail, endsPath c = false) ∧ pads = [] ∧ (stem tail).getLast? ≠ some '/' := by
  have ended : (∀ c ∈ text.toList, endsPath c = false) ↔ ∀ c ∈ tail, endsPath c = false := by
    constructor
    · intro h c hc
      by_contra ends
      rw [Bool.not_eq_false] at ends
      have there : c ∈ cs := split.eq ▸ List.mem_append_right lead (List.mem_append_right front hc)
      exact absurd (h c ((parts.ends c ends).mpr there)) (by simp [ends])
    · intro h c hc
      by_contra ends
      rw [Bool.not_eq_false] at ends
      have there := (parts.ends c ends).mp hc
      rw [split.eq] at there
      rcases List.mem_append.mp there with hlead | hrest
      · exact absurd (split.lead_free c hlead) (by simp [ends])
      · rcases List.mem_append.mp hrest with hfront | htail
        · exact absurd (split.front_free c hfront) (by simp [ends])
        · exact absurd (h c htail) (by simp [ends])
  have same : pads = [] → pathPart (base text) = tail := by
    rintro rfl
    rw [parts.base_eq, List.append_nil, path]
  constructor
  · intro h
    have unpadded := parts.unpadded.mpr h.unpadded
    exact ⟨ended.mp h.ended, unpadded, same unpadded ▸ h.closed⟩
  · rintro ⟨hended, unpadded, closed⟩
    exact ⟨ended.mpr hended, parts.unpadded.mp unpadded, (same unpadded).symm ▸ closed⟩

theorem parse_of_extends {text : String} {url : Url} (read : parse text = .ok url)
    (web : IsWeb url.scheme) (extends_ : Extends text) {path : String} (h : IsPlainPath path) :
    parse (Client.withoutSlashes text ++ path) = .ok { url with
      path := Client.withoutSlashes url.path ++ path, query := none, fragment := none } := by
  obtain ⟨cs, slashes, pads, parts⟩ := exists_parts read
  obtain ⟨lead, front, tail, split, path_eq⟩ := exists_split parts.only_slashes parts.read web
  obtain ⟨ended, rfl, closed⟩ := (parts.extends_iff split path_eq).mp extends_
  obtain ⟨more, hmore, plain, -⟩ := h.exists_cons
  rw [parse_append parts.some_base h, parts.base_eq, List.append_nil, withoutSlashes_append, hmore]
  exact split.parseKept_join web parts.only_slashes parts.read ended closed plain

theorem extends_of_parse (blanks : DomainNames.RefusesBlanks) {text : String} {url joined : Url}
    (read : parse text = .ok url) (web : IsWeb url.scheme) {path : String} (h : IsPlainPath path)
    (rejoined : parse (Client.withoutSlashes text ++ path) = .ok joined)
    (goesOn : joined.path = Client.withoutSlashes url.path ++ path) : Extends text := by
  obtain ⟨cs, slashes, pads, parts⟩ := exists_parts read
  obtain ⟨lead, front, tail, split, path_eq⟩ := exists_split parts.only_slashes parts.read web
  obtain ⟨more, hmore, plain, named⟩ := h.exists_cons
  rw [parse_append parts.some_base h, parts.base_eq, List.append_assoc, hmore] at rejoined
  rw [withoutSlashes_append, hmore] at goesOn
  exact (parts.extends_iff split path_eq).mpr
    (split.of_path_join web blanks parts.only_slashes parts.padding parts.read plain named rejoined goesOn)

theorem hasHost_of_parse {text : String} {url : Url} (read : parse text = .ok url)
    (web : IsWeb url.scheme) : url.hasHost = true := by
  obtain ⟨cs, slashes, pads, parts⟩ := exists_parts read
  obtain ⟨lead, front, tail, split, -⟩ := exists_split parts.only_slashes parts.read web
  obtain ⟨authority, known, hurl⟩ := split.exists_authority web parts.only_slashes parts.read
  have named := host_ne_empty web.special known
  rw [hurl]
  simpa [hasHost, withRest] using named

end

theorem intercalate_cons_ne_empty (separator : String) {first : String} (named : first ≠ "")
    (others : List String) : separator.intercalate (first :: others) ≠ "" := by
  rw [String.intercalate]
  induction others generalizing first with
  | nil => exact named
  | cons other others ih =>
      refine ih ?_
      intro empty
      rw [String.append_eq_empty_iff, String.append_eq_empty_iff] at empty
      exact named empty.1.1

theorem formQuery_cons_ne_empty (pair : String × String) (pairs : List (String × String)) :
    formQuery (pair :: pairs) ≠ "" := by
  apply intercalate_cons_ne_empty
  simp [formPair]

theorem addParameters_of_query {url : Url} (no_query : url.query = none) (pairs : List (String × String)) :
    url.addParameters pairs =
      { url with query := if pairs = [] then none else some (formQuery pairs) } := by
  cases pairs with
  | nil => simp [addParameters, no_query]
  | cons pair pairs =>
      have named := formQuery_cons_ne_empty pair pairs
      simp [addParameters, no_query, named]

end UsageBoard.Url
