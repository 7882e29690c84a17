import UsageBoard.Proofs.Url.Paths
import UsageBoard.Url.Alphabets

/-!
# Padding inside an address

Blanks and controls do not count at the ends of an address, but no host and no number has any at its
end.

## Main statements

* `netHost?_append_pad`: a host with padding at its end is none.
* `authority?_append_pads`: neither is what goes before a path.
-/

namespace UsageBoard.Url

/-! ## Bytes and characters -/

theorem toNat_eq_of_mem_utf8EncodeChar {c : Char} {byte : UInt8} (h : byte ∈ String.utf8EncodeChar c)
    (small : byte.toNat < 0x80) : c.toNat = byte.toNat := by
  simp only [String.utf8EncodeChar] at h
  rw [Char.toNat]
  generalize c.val.toNat = v at *
  split at h
  · rw [List.mem_singleton.mp h, UInt8.toNat_ofNat']
    omega
  · split at h
    · simp only [List.mem_cons, List.not_mem_nil, or_false] at h
      rcases h with rfl | rfl <;> simp only [UInt8.toNat_ofNat'] at small <;> omega
    · split at h
      · simp only [List.mem_cons, List.not_mem_nil, or_false] at h
        rcases h with rfl | rfl | rfl <;> simp only [UInt8.toNat_ofNat'] at small <;> omega
      · simp only [List.mem_cons, List.not_mem_nil, or_false] at h
        rcases h with rfl | rfl | rfl | rfl <;> simp only [UInt8.toNat_ofNat'] at small <;> omega

theorem mem_toList_of_mem_bytes {bytes : List UInt8} {text : String}
    (read : String.fromUTF8? ⟨bytes.toArray⟩ = some text) {c : Char} (small : c.toNat < 0x80)
    (mem : UInt8.ofNat c.toNat ∈ bytes) : c ∈ text.toList := by
  have encoded : text.toByteArray = ⟨bytes.toArray⟩ := by
    rw [String.fromUTF8?] at read
    split at read
    · rw [← Option.some.inj read]
      rfl
    · cases read
  have same : text.toList.flatMap String.utf8EncodeChar = bytes := by
    rw [← List.toList_data_toByteArray (l := text.toList.flatMap String.utf8EncodeChar)]
    change text.toList.utf8Encode.data.toList = bytes
    rw [String.utf8Encode_toList, encoded]
  rw [← same, List.mem_flatMap] at mem
  obtain ⟨d, hd, hbyte⟩ := mem
  have byte : (UInt8.ofNat c.toNat).toNat = c.toNat := by
    rw [UInt8.toNat_ofNat']
    omega
  have equal : d.toNat = c.toNat := (toNat_eq_of_mem_utf8EncodeChar hbyte (by omega)).trans byte
  rwa [← Char.toNat_inj.mp equal]

theorem mem_decode_append {c : Char} (pad : isPad c) (cs : List Char) :
    UInt8.ofNat c.toNat ∈ decode (cs ++ [c]) := by
  have own : ∀ c, isPad c → UInt8.ofNat c.toNat ∈ bytesOf c ∧ Json.hexValue? c = none ∧ c ≠ '%' :=
    forall_isPad (by decide +kernel)
  obtain ⟨mem, noDigit, noPercent⟩ := own c pad
  induction cs using decode.induct with
  | case1 =>
      rw [List.nil_append, decode]
      · exact List.mem_append_left _ mem
      · exact fun _ _ _ percent => absurd percent noPercent
  | case2 a b rest high low hhigh hlow ih =>
      have step : decode ('%' :: a :: b :: rest ++ [c]) =
          UInt8.ofNat (16 * high + low) :: decode (rest ++ [c]) := by
        simp only [List.cons_append, decode, hhigh, hlow]
      rw [step]
      exact List.mem_cons_of_mem _ ih
  | case3 a b rest unread ih =>
      have step : decode ('%' :: a :: b :: rest ++ [c]) = bytesOf '%' ++ decode (a :: b :: rest ++ [c]) := by
        rw [List.cons_append, List.cons_append, List.cons_append, decode]
        split
        · rename_i high low hhigh hlow
          exact absurd hlow (unread high low hhigh)
        · rfl
      rw [step]
      exact List.mem_append_right _ ih
  | case4 d rest other ih =>
      have step : decode (d :: (rest ++ [c])) = bytesOf d ++ decode (rest ++ [c]) := by
        rcases rest with _ | ⟨a, _ | ⟨b, rest⟩⟩
        · rw [decode]
          exact fun _ _ _ _ short => List.cons_ne_nil _ _ (List.tail_eq_of_cons_eq short).symm
        · -- a percent sign, a digit and padding are no triple
          rcases eq_or_ne d '%' with rfl | hne
          · rw [List.singleton_append, decode]
            simp [noDigit]
          · rw [decode]
            exact fun _ _ _ percent _ => hne percent
        · rw [decode]
          exact fun _ _ _ percent _ => other a b rest percent rfl
      rw [List.cons_append, step]
      exact List.mem_append_right _ ih

/-! ## Hosts -/

theorem fourBytesChars_ne_nil (n : Nat) : fourBytesChars n ≠ [] := by
  simp [fourBytesChars, Text.join, List.intercalate]

theorem bracketed?_ne_nil {cs host : List Char} (read : bracketed? cs = .ok host) : host ≠ [] := by
  unfold bracketed? at read
  split at read
  · split at read
    · rw [← Except.ok.inj read]
      exact List.cons_ne_nil _ _
    · cases read
  · cases read

section

variable [DomainNames]

theorem domain?_of_mem_pad (blanks : DomainNames.RefusesBlanks) {c : Char} (pad : isPad c)
    {cs : List Char} (mem : c ∈ cs) : domain? cs = none := by
  have own : ∀ c, isPad c → isForbidden c.toLower = true := forall_isPad (by decide +kernel)
  have found : (cs.map Char.toLower).any isForbidden = true :=
    List.any_eq_true.mpr ⟨c.toLower, List.mem_map_of_mem mem, own c pad⟩
  rw [domain?, if_pos found]
  split
  · rfl
  · exact blanks cs ⟨c, mem, of_decide_eq_true pad⟩

end

open scoped Alphabets in
theorem Alphabets.refusesBlanks : DomainNames.RefusesBlanks := by
  rintro domain ⟨c, mem, small⟩
  have own : ∀ c, isPad c → isIgnored c = false ∧ isRefused (foldChar c) = true :=
    forall_isPad (by decide +kernel)
  obtain ⟨counts, refused⟩ := own c (decide_eq_true small)
  have found : ((domain.filter fun d => !isIgnored d).map foldChar).any isRefused = true := by
    rw [List.any_eq_true]
    refine ⟨foldChar c, List.mem_map_of_mem (List.mem_filter.mpr ⟨mem, ?_⟩), refused⟩
    rw [counts]
    rfl
  exact if_pos found

section

variable [DomainNames]

theorem netHost?_append_pad (blanks : DomainNames.RefusesBlanks) {c : Char} (pad : isPad c)
    {host : List Char} (some_host : host ≠ []) : ∃ why, netHost? (host ++ [c]) = .error why := by
  have own : ∀ c, isPad c → c ≠ ']' := forall_isPad (by decide)
  obtain ⟨first, host, rfl⟩ := List.exists_cons_of_ne_nil some_host
  rcases eq_or_ne first '[' with rfl | noBracket
  · refine ⟨.invalidEightPieces, ?_⟩
    have unclosed : (host ++ [c]).getLast? ≠ some ']' := by
      simpa using own c pad
    rw [List.cons_append, netHost?, bracketed?, if_neg unclosed]
  · refine ⟨.invalidDomain, ?_⟩
    have nowhere : ((String.fromUTF8? ⟨(decode (first :: host ++ [c])).toArray⟩).bind fun text =>
        domain? text.toList) = none := by
      rw [Option.bind_eq_none_iff]
      intro text read
      have small : c.toNat < 0x80 := Nat.lt_of_le_of_lt (of_decide_eq_true pad) (by decide)
      exact domain?_of_mem_pad blanks pad
        (mem_toList_of_mem_bytes read small (mem_decode_append pad (first :: host)))
    rw [List.cons_append] at nowhere ⊢
    rw [netHost?, nowhere]
    exact fun rest bracket => noBracket (List.head_eq_of_cons_eq bracket)

theorem netHost?_ne_nil {cs host : List Char} (read : netHost? cs = .ok host) : host ≠ [] := by
  unfold netHost? at read
  split at read
  · exact bracketed?_ne_nil read
  · split at read
    · cases read
    · cases read
    · rename_i domain some_domain _
      split at read
      · obtain ⟨n, -, rfl⟩ : ∃ n, fourBytes? domain = .ok n ∧ fourBytesChars n = host := by
          cases h : fourBytes? domain with
          | error why =>
              rw [h] at read
              cases read
          | ok n =>
              rw [h] at read
              exact ⟨n, rfl, Except.ok.inj read⟩
        exact fourBytesChars_ne_nil n
      · rw [← Except.ok.inj read]
        exact some_domain

end

/-! ## What goes before a path -/

theorem splitNumber_of_pads {pads : List Char} (padding : ∀ c ∈ pads, isPad c) (inside : Bool) :
    splitNumber inside pads = (pads, []) := by
  have own : ∀ c, isPad c → c ≠ ':' ∧ c ≠ '[' ∧ c ≠ ']' := forall_isPad (by decide)
  induction pads with
  | nil => rfl
  | cons c pads ih =>
      obtain ⟨first, others⟩ := List.forall_mem_cons.mp padding
      obtain ⟨noColon, noOpening, noClosing⟩ := own c first
      rw [splitNumber, if_neg fun colon => noColon colon.1, if_neg noOpening, if_neg noClosing, ih others]

/-- Padding goes on the number, or on the host if there is no number. -/
theorem splitNumber_append {pads : List Char} (padding : ∀ c ∈ pads, isPad c) (inside : Bool)
    (cs : List Char) :
    splitNumber inside (cs ++ pads) =
      if (splitNumber inside cs).2 = [] then ((splitNumber inside cs).1 ++ pads, [])
      else ((splitNumber inside cs).1, (splitNumber inside cs).2 ++ pads) := by
  induction cs generalizing inside with
  | nil => exact splitNumber_of_pads padding inside
  | cons c cs ih =>
      rw [List.cons_append, splitNumber, splitNumber]
      split
      · rfl
      · rw [ih]
        generalize splitNumber (if c = '[' then true else if c = ']' then false else inside) cs = found
        obtain ⟨host, number⟩ := found
        cases number <;> rfl

theorem splitAtLast_append {c : Char} {more : List Char} (free : ∀ d ∈ more, d ≠ c) (cs : List Char) :
    splitAtLast c (cs ++ more) = (splitAtLast c cs).map fun (before, after) => (before, after ++ more) := by
  have passed : ∀ d ∈ more.reverse, (d != c) = true := by
    intro d hd
    exact bne_iff_ne.mpr (free d (List.mem_reverse.mp hd))
  have absent : c ∉ more := fun hc => free c hc rfl
  unfold splitAtLast
  simp only [List.contains_iff_mem, List.mem_append, absent, or_false, List.reverse_append,
    List.takeWhile_append_of_pos passed, List.reverse_reverse]
  split
  · rename_i there
    have length : ((cs.reverse.takeWhile (· != c)).reverse).length ≤ cs.length := by
      have shorter := (List.takeWhile_prefix (l := cs.reverse) (· != c)).length_le
      rwa [List.length_reverse, ← @List.length_reverse _ cs]
    have same : cs.length + more.length -
        ((cs.reverse.takeWhile (· != c)).reverse.length + more.length) - 1 =
          cs.length - (cs.reverse.takeWhile (· != c)).reverse.length - 1 := by omega
    simp only [Option.map_some, List.length_append]
    rw [same, List.take_append_of_le_length (by omega)]
  · rfl

/-- The user's part of what goes before a path. -/
def userPart (cs : List Char) : List Char := ((splitAtLast '@' cs).getD ([], cs)).1

/-- The host and the number in what goes before a path, the number with its colon. -/
def hostPart (cs : List Char) : List Char × List Char :=
  splitNumber false ((splitAtLast '@' cs).getD ([], cs)).2

theorem hostPart_append {pads : List Char} (padding : ∀ c ∈ pads, isPad c) (cs : List Char) :
    hostPart (cs ++ pads) =
      if (hostPart cs).2 = [] then ((hostPart cs).1 ++ pads, [])
      else ((hostPart cs).1, (hostPart cs).2 ++ pads) := by
  have own : ∀ c, isPad c → c ≠ '@' := forall_isPad (by decide)
  unfold hostPart
  rw [splitAtLast_append fun c hc => own c (padding c hc)]
  cases splitAtLast '@' cs with
  | none => exact splitNumber_append padding false cs
  | some parts => exact splitNumber_append padding false parts.2

section

variable [DomainNames]

theorem authority?_of_special {scheme : String} (special : isSpecial scheme = true) (cs : List Char) :
    authority? scheme cs =
      if (hostPart cs).1 = [] then .error .emptyHost
      else (netHost? (hostPart cs).1).bind fun host =>
        (number? scheme ((hostPart cs).2.drop 1)).map fun number =>
          ⟨(credentials (userPart cs)).1, (credentials (userPart cs)).2, String.ofList host, number⟩ := by
  unfold authority? hostPart userPart
  generalize (splitAtLast '@' cs).getD ([], cs) = parts
  obtain ⟨user, hostAndNumber⟩ := parts
  simp only [special, List.isEmpty_iff, true_or, and_true, if_true]
  generalize splitNumber false hostAndNumber = found
  obtain ⟨host, number⟩ := found
  simp only
  split
  · rfl
  · cases netHost? host with
    | error why => rfl
    | ok host =>
        simp only [Except.bind]
        cases number? scheme (number.drop 1) <;> rfl

theorem authority?_eq_ok {scheme : String} (special : isSpecial scheme = true) {cs : List Char}
    {authority : Authority} (read : authority? scheme cs = .ok authority) :
    (hostPart cs).1 ≠ [] ∧ ∃ host, netHost? (hostPart cs).1 = .ok host ∧
      authority.host = String.ofList host := by
  rw [authority?_of_special special] at read
  split at read
  · cases read
  · rename_i some_host
    refine ⟨some_host, ?_⟩
    cases hhost : netHost? (hostPart cs).1 with
    | error why =>
        rw [hhost] at read
        cases read
    | ok host =>
        rw [hhost, Except.bind] at read
        refine ⟨host, rfl, ?_⟩
        cases hnumber : number? scheme ((hostPart cs).2.drop 1) with
        | error why =>
            rw [hnumber] at read
            cases read
        | ok number =>
            rw [hnumber] at read
            rw [← Except.ok.inj read]

theorem host_ne_empty {scheme : String} (special : isSpecial scheme = true) {cs : List Char}
    {authority : Authority} (read : authority? scheme cs = .ok authority) : authority.host ≠ "" := by
  obtain ⟨-, host, hhost, same⟩ := authority?_eq_ok special read
  rw [same]
  intro empty
  exact netHost?_ne_nil hhost (String.ofList_eq_empty_iff.mp empty)

theorem authority?_append_pads (blanks : DomainNames.RefusesBlanks) {scheme : String}
    (special : isSpecial scheme = true) {cs : List Char}
    {authority : Authority} (read : authority? scheme cs = .ok authority) {pads : List Char}
    (some_pad : pads ≠ []) (padding : ∀ c ∈ pads, isPad c) :
    ∃ why, authority? scheme (cs ++ pads) = .error why := by
  obtain ⟨some_host, host, hhost, -⟩ := authority?_eq_ok special read
  rw [authority?_of_special special, hostPart_append padding]
  split
  · have split : (hostPart cs).1 ++ pads = ((hostPart cs).1 ++ pads.dropLast) ++ [pads.getLast some_pad] := by
      rw [List.append_assoc, List.dropLast_append_getLast]
    obtain ⟨why, nowhere⟩ := netHost?_append_pad blanks (padding _ (List.getLast_mem some_pad))
      (List.append_ne_nil_of_left_ne_nil some_host pads.dropLast)
    refine ⟨why, ?_⟩
    rw [if_neg (List.append_ne_nil_of_left_ne_nil some_host pads), split, nowhere]
    rfl
  · rename_i some_number
    have own : ∀ c, isPad c → c.isDigit = false := forall_isPad (by decide)
    obtain ⟨colon, digits, hnumber⟩ := List.exists_cons_of_ne_nil some_number
    have wrong : ¬((digits ++ pads).all Char.isDigit = true) := by
      intro all
      have digit := List.all_eq_true.mp all _ (List.mem_append_right _ (List.getLast_mem some_pad))
      rw [own _ (padding _ (List.getLast_mem some_pad))] at digit
      cases digit
    refine ⟨.badNumber, ?_⟩
    dsimp only
    rw [hhost, hnumber, List.cons_append, List.drop_one, List.tail_cons, number?,
      if_neg fun both => wrong both.1]
    rfl

end

end UsageBoard.Url
