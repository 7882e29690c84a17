import UsageBoard.Proofs.Outcome
import UsageBoard.Proofs.Url.Padding

/-!
# Addresses with a path after them

An address of the web is split into what leads to the host, what goes before the path, and the path
with what follows.  With a plain path put after its text, it is the same address with a longer path
only if it has no query and no fragment, no padding at its end, and no slash at the end of its path.

## Main statements

* `exists_split`: how an address of the web is split.
* `parseKept_join`, `of_path_join`: when the path goes on where the address ends.
-/

namespace UsageBoard.Url

def IsWeb (scheme : String) : Prop := scheme = "http" ∨ scheme = "https"

theorem IsWeb.special {scheme : String} (web : IsWeb scheme) : isSpecial scheme = true := by
  rcases web with rfl | rfl <;> decide

theorem IsWeb.ne_file {scheme : String} (web : IsWeb scheme) : scheme ≠ fileScheme := by
  rcases web with rfl | rfl <;> decide

theorem IsWeb.isNet {scheme : String} (web : IsWeb scheme) : (netSchemes.lookup scheme).isSome := by
  rcases web with rfl | rfl <;> decide

/-! ## Splitting -/

theorem splitBefore_append {test : Char → Bool} {front : List Char} (free : ∀ c ∈ front, test c = false)
    (rest : List Char) :
    splitBefore test (front ++ rest) = (front ++ (splitBefore test rest).1, (splitBefore test rest).2) := by
  have passed : ∀ c ∈ front, (!test c) = true := by
    intro c hc
    rw [free c hc]
    rfl
  rw [splitBefore, List.takeWhile_append_of_pos passed, List.dropWhile_append_of_pos passed]
  rfl

theorem splitBefore_of_free {test : Char → Bool} {cs : List Char} (free : ∀ c ∈ cs, test c = false) :
    splitBefore test cs = (cs, []) := by
  have split := splitBefore_append free []
  rwa [List.append_nil, show splitBefore test [] = ([], []) from rfl, List.append_nil] at split

theorem splitBefore_of_stop {test : Char → Bool} {rest : List Char}
    (stop : ∀ c, rest.head? = some c → test c = true) : splitBefore test rest = ([], rest) := by
  cases rest with
  | nil => rfl
  | cons c rest =>
      have hc := stop c rfl
      simp [splitBefore, hc]

theorem exists_splitBefore (test : Char → Bool) (cs : List Char) :
    ∃ front rest, cs = front ++ rest ∧ (∀ c ∈ front, test c = false) ∧
      ∀ c, rest.head? = some c → test c = true := by
  refine ⟨cs.takeWhile fun c => !test c, cs.dropWhile fun c => !test c,
    List.takeWhile_append_dropWhile.symm, ?_, ?_⟩
  · intro c hc
    simpa using List.mem_takeWhile_imp hc
  · intro c hc
    have stopped := List.head?_dropWhile_not (fun c => !test c) cs
    rw [hc] at stopped
    simpa using stopped

theorem exists_name {cs rest : List Char} {scheme : String} (read : scheme? cs = some (scheme, rest)) :
    ∃ name, cs = name ++ ':' :: rest ∧ (∀ c ∈ name, c ≠ ':' ∧ endsPath c = false) ∧
      ∀ other, scheme? (name ++ ':' :: other) = some (scheme, other) := by
  obtain ⟨name, tail, rfl, free, stop⟩ := exists_splitBefore (· == ':') cs
  have split : ∀ other, splitBefore (· == ':') (name ++ ':' :: other) = (name, ':' :: other) := by
    intro other
    rw [splitBefore_append free, splitBefore_of_stop (by simp), List.append_nil]
  rw [scheme?, splitBefore_append free, splitBefore_of_stop stop, List.append_nil] at read
  rcases name with _ | ⟨c, name⟩
  · cases read
  · rcases tail with _ | ⟨colon, tail⟩
    · cases read
    · obtain rfl : colon = ':' := by simpa using stop colon rfl
      simp only [Option.ite_none_right_eq_some, Option.some.injEq, Prod.mk.injEq] at read
      obtain ⟨⟨letter, letters⟩, rfl, rfl⟩ := read
      refine ⟨c :: name, rfl, ?_, ?_⟩
      · intro d hd
        refine ⟨by simpa using free d hd, ?_⟩
        rw [← Bool.not_eq_true]
        intro ends
        have either : d = '?' ∨ d = '#' := by simpa [endsPath] using ends
        rcases List.mem_cons.mp hd with rfl | hd
        · rcases either with rfl | rfl <;> exact absurd letter (by decide)
        · have named := List.all_eq_true.mp letters d hd
          rcases either with rfl | rfl <;> exact absurd named (by decide)
      · intro other
        rw [scheme?, split]
        exact if_pos ⟨letter, letters⟩

/-- The path of an address with what follows it: after the scheme and the slashes, what begins with a
slash, a query or a fragment. -/
def pathPart (cs : List Char) : List Char :=
  (((cs.dropWhile (· != ':')).drop 1).dropWhile (isSlash true)).dropWhile fun c =>
    !(isSlash true c || endsPath c)

theorem endsPath_of_isSlash {c : Char} (slash : isSlash true c = true) : endsPath c = false := by
  have either : c = '/' ∨ c = '\\' := by simpa [isSlash] using slash
  rcases either with rfl | rfl <;> rfl

theorem pathPart_eq {name rest front tail : List Char} (named : ∀ c ∈ name, c ≠ ':')
    (hbody : rest.dropWhile (isSlash true) = front ++ tail)
    (free : ∀ c ∈ front, (isSlash true c || endsPath c) = false)
    (stop : ∀ c, tail.head? = some c → (isSlash true c || endsPath c) = true) :
    pathPart (name ++ ':' :: rest) = tail := by
  have passed : ∀ c ∈ name, (c != ':') = true := fun c hc => bne_iff_ne.mpr (named c hc)
  have split := splitBefore_append free tail
  rw [splitBefore_of_stop stop, List.append_nil] at split
  rw [pathPart, List.dropWhile_append_of_pos passed, List.dropWhile_cons_of_neg (by simp), List.drop_one,
    List.tail_cons, hbody]
  exact congrArg Prod.snd split

/-- The colon after a scheme is none of the slashes at the end. -/
theorem exists_rest {cs slashes name all : List Char} (hslashes : ∀ c ∈ slashes, c = '/')
    (hname : cs ++ slashes = name ++ ':' :: all) :
    ∃ rest, cs = name ++ ':' :: rest ∧ all = rest ++ slashes := by
  have noColon : ':' ∉ slashes := fun colon => absurd (hslashes ':' colon) (by decide)
  rcases List.append_eq_append_iff.mp hname with ⟨more, -, hmore⟩ | ⟨more, rfl, hmore⟩
  · exact absurd (hmore ▸ List.mem_append_right more List.mem_cons_self) noColon
  · rcases more with _ | ⟨colon, rest⟩
    · rw [List.nil_append] at hmore
      exact absurd (hmore ▸ List.mem_cons_self) noColon
    · obtain ⟨rfl, rfl⟩ := List.cons.inj hmore
      exact ⟨rest, rfl, rfl⟩

/-! ## Slashes at the end -/

/-- A text without the slashes at its end. -/
def stripped (cs : List Char) : List Char := cs.rdropWhile (· == '/')

theorem stripped_append {slashes : List Char} (h : ∀ c ∈ slashes, c = '/') (cs : List Char) :
    stripped (cs ++ slashes) = stripped cs := by
  induction slashes using List.reverseRecOn with
  | nil => rw [List.append_nil]
  | append_singleton slashes last ih =>
      obtain rfl : last = '/' := h last (by simp)
      rw [← List.append_assoc, stripped, List.rdropWhile_concat_pos _ _ _ rfl]
      exact ih fun c hc => h c (List.mem_append_left _ hc)

theorem stripped_of_getLast? {cs : List Char} (closed : cs.getLast? ≠ some '/') : stripped cs = cs := by
  rw [stripped, List.rdropWhile_eq_self_iff]
  intro some_char slash
  rw [List.getLast?_eq_some_getLast some_char] at closed
  exact closed (congrArg some (by simpa using slash))

theorem getLast?_stripped (cs : List Char) : (stripped cs).getLast? ≠ some '/' := by
  intro slash
  have some_char : cs.rdropWhile (· == '/') ≠ [] := by
    intro none
    rw [stripped, none] at slash
    cases slash
  have last := List.rdropWhile_last_not (· == '/') cs some_char
  rw [stripped, List.getLast?_eq_some_getLast some_char, Option.some.injEq] at slash
  simp [slash] at last

theorem length_stripped_le (cs : List Char) : (stripped cs).length ≤ cs.length :=
  (List.rdropWhile_prefix (· == '/') cs).length_le

theorem exists_slashes_stripped (cs : List Char) :
    ∃ slashes : List Char, (∀ c ∈ slashes, c = '/') ∧ cs = stripped cs ++ slashes := by
  refine ⟨cs.rtakeWhile (· == '/'), ?_, List.rdropWhile_append_rtakeWhile.symm⟩
  intro c hc
  simpa using List.mem_rtakeWhile_imp hc

theorem stop_slash (more : List Char) :
    ∀ c, ('/' :: more).head? = some c → (isSlash true c || endsPath c) = true := by
  rintro c hc
  rw [← Option.some.inj hc]
  rfl

/-! ## Addresses of the web -/

variable [DomainNames]

/-- A character that counts within an address. -/
def isKept (c : Char) : Bool := c != '\t' && c != '\n' && c != '\r'

def parseKept (cs : List Char) : Except UrlError Url :=
  match scheme? cs with
  | none => .error .relative
  | some (scheme, rest) =>
      if scheme = fileScheme then file? rest
      else if (netSchemes.lookup scheme).isSome then
        withAuthority? scheme (rest.dropWhile (isSlash true))
      else other? scheme rest

theorem parse_eq (text : String) :
    parse text = parseKept ((Text.trimBy isPad text.toList).filter isKept) :=
  rfl

/-- What stands before the host of an address of a scheme. -/
def Leads (scheme : String) (lead : List Char) : Prop :=
  ∀ cs, (∀ c, cs.head? = some c → isSlash true c = false) →
    parseKept (lead ++ cs) = withAuthority? scheme cs

theorem scheme_of_withAuthority? {scheme : String} {cs : List Char} {url : Url}
    (read : withAuthority? scheme cs = .ok url) : url.scheme = scheme := by
  obtain ⟨authority, -, rest⟩ := exists_of_bind_eq_ok read
  rw [← Except.ok.inj rest]
  rfl

theorem scheme_of_other? {scheme : String} {cs : List Char} {url : Url}
    (read : other? scheme cs = .ok url) : url.scheme = scheme := by
  unfold other? at read
  split at read
  · exact scheme_of_withAuthority? read
  · dsimp only at read
    split at read <;> exact congrArg Url.scheme (Except.ok.inj read).symm

theorem scheme_of_file? {cs : List Char} {url : Url} (read : file? cs = .ok url) :
    url.scheme = fileScheme := by
  dsimp only [file?] at read
  rcases ite_eq_iff.mp read with ⟨-, read⟩ | ⟨-, read⟩ <;>
  · obtain ⟨host, -, rest⟩ := exists_of_bind_eq_ok read
    rw [← Except.ok.inj rest]
    rfl

theorem parseKept_of_scheme? {cs rest : List Char} {scheme : String} (web : IsWeb scheme)
    (read : scheme? cs = some (scheme, rest)) :
    parseKept cs = withAuthority? scheme (rest.dropWhile (isSlash true)) := by
  rw [parseKept, read]
  dsimp only
  rw [if_neg web.ne_file, if_pos web.isNet]

theorem exists_scheme {cs : List Char} {url : Url} (read : parseKept cs = .ok url) :
    ∃ rest, scheme? cs = some (url.scheme, rest) := by
  unfold parseKept at read
  split at read
  · cases read
  · rename_i scheme rest named
    refine ⟨rest, ?_⟩
    have same : url.scheme = scheme := by
      split at read
      · rename_i isFile
        exact (scheme_of_file? read).trans isFile.symm
      · split at read
        · exact scheme_of_withAuthority? read
        · exact scheme_of_other? read
    rw [same, named]

theorem withAuthority?_eq {scheme : String} (special : isSpecial scheme = true) {front : List Char}
    (free : ∀ c ∈ front, (isSlash true c || endsPath c) = false) {tail : List Char}
    (stop : ∀ c, tail.head? = some c → (isSlash true c || endsPath c) = true) :
    withAuthority? scheme (front ++ tail) = (authority? scheme front).map fun authority =>
      withRest scheme (some authority) (pathText true ((splitBefore endsPath tail).1.drop 1))
        (splitBefore endsPath tail).2 := by
  simp only [withAuthority?, special, splitBefore_append free, splitBefore_of_stop stop, List.append_nil,
    Bool.not_true, Bool.false_eq_true, and_false, if_false]
  cases authority? scheme front <;> rfl

/-- An address of the web is what leads to the host, what goes before the path, and the rest. -/
structure IsSplit (scheme : String) (cs lead front tail : List Char) : Prop where
  eq : cs = lead ++ (front ++ tail)
  leads : Leads scheme lead
  some_front : front ≠ []
  lead_free : ∀ c ∈ lead, endsPath c = false
  front_free : ∀ c ∈ front, (isSlash true c || endsPath c) = false
  stop : ∀ c, tail.head? = some c → (isSlash true c || endsPath c) = true

theorem not_withAuthority?_of_stop {scheme : String} (special : isSpecial scheme = true) {cs : List Char}
    (stop : ∀ c, cs.head? = some c → (isSlash true c || endsPath c) = true) (url : Url) :
    withAuthority? scheme cs ≠ .ok url := by
  intro read
  rw [← List.nil_append cs, withAuthority?_eq special (by simp) stop] at read
  cases nothing : authority? scheme [] with
  | error why =>
      rw [nothing] at read
      cases read
  | ok authority => exact (authority?_eq_ok special nothing).1 rfl

theorem exists_split {cs slashes : List Char} (hslashes : ∀ c ∈ slashes, c = '/') {url : Url}
    (read : parseKept (cs ++ slashes) = .ok url) (web : IsWeb url.scheme) :
    ∃ lead front tail, IsSplit url.scheme cs lead front tail ∧ pathPart cs = tail := by
  obtain ⟨all, named⟩ := exists_scheme read
  rw [parseKept_of_scheme? web named] at read
  obtain ⟨name, hname, name_free, again⟩ := exists_name named
  obtain ⟨rest, rfl, rfl⟩ := exists_rest hslashes hname
  obtain ⟨front, tail, hbody, front_free, stop⟩ :=
    exists_splitBefore (fun c => isSlash true c || endsPath c) (rest.dropWhile (isSlash true))
  have slashes_only : ∀ c ∈ rest.takeWhile (isSlash true), isSlash true c = true := fun c hc =>
    List.mem_takeWhile_imp hc
  refine ⟨name ++ ':' :: rest.takeWhile (isSlash true), front, tail, ?_,
    pathPart_eq (fun c hc => (name_free c hc).1) hbody front_free stop⟩
  constructor
  · rw [← hbody, List.append_assoc, List.cons_append, List.takeWhile_append_dropWhile]
  · intro more noSlash
    rw [List.append_assoc, List.cons_append, parseKept_of_scheme? web (again _),
      List.dropWhile_append_of_pos slashes_only]
    cases more with
    | nil => rfl
    | cons c more => rw [List.dropWhile_cons_of_neg (by simp [noSlash c rfl])]
  · rintro rfl
    refine not_withAuthority?_of_stop web.special ?_ url read
    rw [List.dropWhile_append, hbody, List.nil_append]
    cases tail with
    | nil =>
        have nothing : slashes.dropWhile (isSlash true) = [] := by
          rw [List.dropWhile_eq_nil_iff]
          intro c hc
          rw [hslashes c hc]
          rfl
        simp [nothing]
    | cons c tail =>
        intro d hd
        exact stop d hd
  · intro c hc
    rcases List.mem_append.mp hc with hc | hc
    · exact (name_free c hc).2
    · rcases List.mem_cons.mp hc with rfl | hc
      · rfl
      · exact endsPath_of_isSlash (slashes_only c hc)
  · exact front_free
  · exact stop

/-! ## A path after an address -/

namespace IsSplit

variable {scheme : String} {cs lead front tail : List Char} (split : IsSplit scheme cs lead front tail)
  (web : IsWeb scheme)

include split

theorem stop_append (more : List Char)
    (stop : tail = [] → ∀ c, more.head? = some c → (isSlash true c || endsPath c) = true) :
    ∀ c, (tail ++ more).head? = some c → (isSlash true c || endsPath c) = true := by
  intro c hc
  cases tail with
  | nil => exact stop rfl c hc
  | cons d tail => exact split.stop c hc

include web

theorem parseKept_append {more : List Char}
    (stop : ∀ c, (tail ++ more).head? = some c → (isSlash true c || endsPath c) = true) :
    parseKept (cs ++ more) = (authority? scheme front).map fun authority =>
      withRest scheme (some authority) (pathText true ((splitBefore endsPath (tail ++ more)).1.drop 1))
        (splitBefore endsPath (tail ++ more)).2 := by
  have noSlash : ∀ c, (front ++ (tail ++ more)).head? = some c → isSlash true c = false := by
    intro c hc
    rw [List.head?_append_of_ne_nil _ split.some_front] at hc
    have free := split.front_free c (List.mem_of_head? hc)
    exact (Bool.or_eq_false_iff.mp free).1
  rw [split.eq, List.append_assoc, List.append_assoc, split.leads _ noSlash,
    withAuthority?_eq web.special split.front_free stop]

theorem exists_authority {slashes : List Char} (hslashes : ∀ c ∈ slashes, c = '/') {url : Url}
    (read : parseKept (cs ++ slashes) = .ok url) :
    ∃ authority, authority? scheme front = .ok authority ∧
      url = withRest scheme (some authority)
        (pathText true ((splitBefore endsPath (tail ++ slashes)).1.drop 1))
        (splitBefore endsPath (tail ++ slashes)).2 := by
  have stop : tail = [] → ∀ c, slashes.head? = some c → (isSlash true c || endsPath c) = true := by
    intro _ c hc
    rw [hslashes c (List.mem_of_head? hc)]
    rfl
  rw [split.parseKept_append web (split.stop_append _ stop)] at read
  cases known : authority? scheme front with
  | error why =>
      rw [known] at read
      cases read
  | ok authority =>
      rw [known] at read
      exact ⟨authority, rfl, (Except.ok.inj read).symm⟩

theorem parseKept_join {slashes : List Char} (hslashes : ∀ c ∈ slashes, c = '/') {url : Url}
    (read : parseKept (cs ++ slashes) = .ok url) (ended : ∀ c ∈ tail, endsPath c = false)
    (closed : (stem tail).getLast? ≠ some '/') {more : List Char} (plain : ∀ c ∈ more, isPlain c) :
    parseKept (cs ++ '/' :: more) = .ok { url with
      path := String.ofList (stripped url.path.toList ++ '/' :: more), query := none, fragment := none } := by
  have plain_ended : ∀ c, isPlain c → endsPath c = false := forall_isPlain (by decide)
  have ends : ∀ after : List Char, (∀ c ∈ after, isPlain c) →
      splitBefore endsPath (tail ++ after) = (tail ++ after, []) := by
    intro after hafter
    apply splitBefore_of_free
    intro c hc
    rcases List.mem_append.mp hc with hc | hc
    · exact ended c hc
    · exact plain_ended c (hafter c hc)
  have slashes_plain : ∀ c ∈ slashes, isPlain c := by
    intro c hc
    rw [hslashes c hc]
    rfl
  obtain ⟨authority, known, rfl⟩ := split.exists_authority web hslashes read
  obtain ⟨others, hothers, path⟩ := exists_slashes_pathText tail hslashes
  have goesOn := split.stop_append _ fun _ => stop_slash more
  have more_plain : ∀ c ∈ '/' :: more, isPlain c := List.forall_mem_cons.mpr ⟨rfl, plain⟩
  rw [split.parseKept_append web goesOn, known, ends _ more_plain, ends _ slashes_plain, path,
    pathText_append tail plain]
  simp only [withRest, String.toList_ofList, stripped_append hothers, stripped_of_getLast? closed]
  rfl

/-- If a query or a fragment begins in the address, what comes later does not change the path. -/
theorem path_of_ends {slashes more : List Char} (hslashes : ∀ c ∈ slashes, c = '/') {url joined : Url}
    (read : parseKept (cs ++ slashes) = .ok url) (rejoined : parseKept (cs ++ more) = .ok joined)
    {c : Char} (there : c ∈ tail) (ends : endsPath c = true) : joined.path = url.path := by
  obtain ⟨path, rest, hsplit, free, stopped⟩ := exists_splitBefore endsPath tail
  have some_rest : rest ≠ [] := by
    rintro rfl
    rw [List.append_nil] at hsplit
    exact absurd ends (by simp [free c (hsplit ▸ there)])
  have found : ∀ after, (splitBefore endsPath (tail ++ after)).1 = path := by
    intro after
    have still : ∀ d, (rest ++ after).head? = some d → endsPath d = true := by
      intro d hd
      rw [List.head?_append_of_ne_nil _ some_rest] at hd
      exact stopped d hd
    rw [hsplit, List.append_assoc, splitBefore_append free, splitBefore_of_stop still, List.append_nil]
  obtain ⟨authority, known, rfl⟩ := split.exists_authority web hslashes read
  have goesOn := split.stop_append more fun none => absurd there (by simp [none])
  rw [split.parseKept_append web goesOn, known] at rejoined
  rw [← Except.ok.inj rejoined]
  simp only [withRest, found]

theorem path_of_pads {pads : List Char} (padding : ∀ c ∈ pads, isPad c) (some_tail : tail = [] → pads = [])
    (ended : ∀ c ∈ tail, endsPath c = false) {more : List Char} (plain : ∀ c ∈ more, isPlain c)
    {joined : Url} (rejoined : parseKept (cs ++ (pads ++ '/' :: more)) = .ok joined) :
    joined.path = String.ofList (stem (tail ++ pads) ++ '/' :: more) := by
  have pads_ended : ∀ c, isPad c → endsPath c = false := forall_isPad (by decide)
  have plain_ended : ∀ c, isPlain c → endsPath c = false := forall_isPlain (by decide)
  have free : ∀ c ∈ tail ++ (pads ++ '/' :: more), endsPath c = false := by
    intro c hc
    rcases List.mem_append.mp hc with hc | hc
    · exact ended c hc
    · rcases List.mem_append.mp hc with hc | hc
      · exact pads_ended c (padding c hc)
      · rcases List.mem_cons.mp hc with rfl | hc
        · rfl
        · exact plain_ended c (plain c hc)
  have goesOn := split.stop_append (pads ++ '/' :: more) fun none => by
    rw [some_tail none]
    exact stop_slash more
  rw [split.parseKept_append web goesOn, splitBefore_of_free free] at rejoined
  cases known : authority? scheme front with
  | error why =>
      rw [known] at rejoined
      cases rejoined
  | ok authority =>
      rw [known] at rejoined
      rw [← Except.ok.inj rejoined, ← List.append_assoc]
      exact pathText_append (tail ++ pads) plain

/-- No address has padding before the slash of its path. -/
theorem not_parseKept_of_pads (blanks : DomainNames.RefusesBlanks) {slashes pads : List Char}
    (hslashes : ∀ c ∈ slashes, c = '/') (some_pad : pads ≠ []) (padding : ∀ c ∈ pads, isPad c) {url : Url}
    (read : parseKept (cs ++ slashes) = .ok url) (no_tail : tail = []) (more : List Char) (joined : Url) :
    parseKept (cs ++ (pads ++ '/' :: more)) ≠ .ok joined := by
  have pads_free : ∀ c, isPad c → (isSlash true c || endsPath c) = false := forall_isPad (by decide)
  subst no_tail
  have padded : IsSplit scheme (cs ++ pads) lead (front ++ pads) [] := by
    refine ⟨?_, split.leads, ?_, split.lead_free, ?_, by simp⟩
    · rw [split.eq, List.append_nil, List.append_nil, List.append_assoc]
    · exact List.append_ne_nil_of_left_ne_nil split.some_front pads
    · intro c hc
      rcases List.mem_append.mp hc with hc | hc
      · exact split.front_free c hc
      · exact pads_free c (padding c hc)
  obtain ⟨authority, known, -⟩ := split.exists_authority web hslashes read
  obtain ⟨why, wrong⟩ := authority?_append_pads blanks web.special known some_pad padding
  rw [← List.append_assoc, padded.parseKept_append web (stop_slash more), wrong]
  nofun

theorem ended_of_path_join {slashes before more : List Char} (hslashes : ∀ c ∈ slashes, c = '/')
    {url joined : Url} (read : parseKept (cs ++ slashes) = .ok url) (named : ∃ c ∈ more, c ≠ '/')
    (rejoined : parseKept (cs ++ (before ++ '/' :: more)) = .ok joined)
    (path : joined.path = String.ofList (stripped url.path.toList ++ '/' :: more)) :
    ∀ c ∈ tail, endsPath c = false := by
  intro c hc
  by_contra ends
  have same := split.path_of_ends web hslashes read rejoined hc (by simpa using ends)
  obtain ⟨others, hothers, hpath⟩ := exists_slashes_stripped url.path.toList
  have both : stripped url.path.toList ++ others = stripped url.path.toList ++ '/' :: more :=
    calc stripped url.path.toList ++ others = url.path.toList := hpath.symm
      _ = joined.path.toList := by rw [same]
      _ = stripped url.path.toList ++ '/' :: more := by rw [path, String.toList_ofList]
  have more_slashes : others = '/' :: more := List.append_cancel_left both
  obtain ⟨d, hd, noSlash⟩ := named
  exact noSlash (hothers d (more_slashes ▸ List.mem_cons_of_mem _ hd))

theorem of_path_join (blanks : DomainNames.RefusesBlanks) {slashes pads : List Char}
    (hslashes : ∀ c ∈ slashes, c = '/') (padding : ∀ c ∈ pads, isPad c) {url joined : Url}
    (read : parseKept (cs ++ slashes) = .ok url) {more : List Char} (plain : ∀ c ∈ more, isPlain c)
    (named : ∃ c ∈ more, c ≠ '/')
    (rejoined : parseKept (cs ++ (pads ++ '/' :: more)) = .ok joined)
    (path : joined.path = String.ofList (stripped url.path.toList ++ '/' :: more)) :
    (∀ c ∈ tail, endsPath c = false) ∧ pads = [] ∧ (stem tail).getLast? ≠ some '/' := by
  have ended := split.ended_of_path_join web hslashes read named rejoined path
  obtain ⟨authority, -, hurl⟩ := split.exists_authority web hslashes read
  obtain ⟨others, hothers, hpath⟩ := exists_slashes_pathText tail hslashes
  have url_path : stripped url.path.toList = stripped (stem tail) := by
    have free : ∀ c ∈ tail ++ slashes, endsPath c = false := by
      intro c hc
      rcases List.mem_append.mp hc with hc | hc
      · exact ended c hc
      · rw [hslashes c hc]
        rfl
    rw [hurl, splitBefore_of_free free, hpath]
    simp only [withRest, String.toList_ofList, stripped_append hothers]
  have stems : (tail = [] → pads = []) → stem (tail ++ pads) = stripped (stem tail) := by
    intro some_tail
    rw [split.path_of_pads web padding some_tail ended plain rejoined, url_path] at path
    exact List.append_cancel_right (String.ofList_injective path)
  have unpadded : pads = [] := by
    by_contra some_pad
    by_cases no_tail : tail = []
    · exact split.not_parseKept_of_pads web blanks hslashes some_pad padding read no_tail more joined rejoined
    · have longer := length_stem_lt no_tail some_pad padding
      rw [stems fun none => absurd none no_tail] at longer
      exact absurd (length_stripped_le (stem tail)) (Nat.not_le.mpr longer)
  refine ⟨ended, unpadded, ?_⟩
  have closed := stems fun _ => unpadded
  rw [unpadded, List.append_nil] at closed
  rw [closed]
  exact getLast?_stripped (stem tail)

end IsSplit

end UsageBoard.Url
