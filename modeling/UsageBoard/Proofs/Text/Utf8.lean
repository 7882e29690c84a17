import UsageBoard.Text.Utf8

/-!
# Text as bytes and back

Every character is read back from its bytes, whatever follows them.  Main statement: a text is read
back from its bytes (`decodeWith_utf8`).
-/

namespace UsageBoard.Text

variable {b value missing low high : Nat} {rest : List UInt8}

theorem decodeFrom_byte (small : b < 0x80) :
    decodeFrom none (UInt8.ofNat b :: rest) = some (Char.ofNat b) :: decodeFrom none rest := by
  have byte : (UInt8.ofNat b).toNat = b := UInt8.toNat_ofNat_of_lt' (Nat.lt_trans small (by decide))
  rw [decodeFrom, byte, Start.of, if_pos small]
  rfl

theorem decodeFrom_start {p : Pending} (byte : b < 0x100) (start : Start.of b = .pending p) :
    decodeFrom none (UInt8.ofNat b :: rest) = decodeFrom (some p) rest := by
  rw [decodeFrom, UInt8.toNat_ofNat_of_lt' byte, start]
  rfl

theorem decodeFrom_more (byte : b < 0x100) (inside : low ≤ b ∧ b ≤ high) (more : 1 < missing) :
    decodeFrom (some ⟨value, missing, low, high⟩) (UInt8.ofNat b :: rest) =
      decodeFrom (some ⟨64 * value + (b - 0x80), missing - 1, 0x80, 0xBF⟩) rest := by
  rw [decodeFrom, UInt8.toNat_ofNat_of_lt' byte]
  exact (if_pos inside).trans (if_neg (Nat.not_le.mpr more))

theorem decodeFrom_last (byte : b < 0x100) (inside : low ≤ b ∧ b ≤ high) :
    decodeFrom (some ⟨value, 1, low, high⟩) (UInt8.ofNat b :: rest) =
      some (Char.ofNat (64 * value + (b - 0x80))) :: decodeFrom none rest := by
  rw [decodeFrom, UInt8.toNat_ofNat_of_lt' byte]
  exact (if_pos inside).trans (if_pos (Nat.le_refl 1))

theorem start_two (least : 0xC2 ≤ b) (most : b < 0xE0) :
    Start.of b = .pending ⟨b - 0xC0, 1, 0x80, 0xBF⟩ := by
  rw [Start.of, if_neg (by omega), if_neg (by omega), if_pos most]

theorem start_three (least : 0xE0 ≤ b) (most : b < 0xF0) :
    Start.of b = .pending ⟨b - 0xE0, 2, if b = 0xE0 then 0xA0 else 0x80, if b = 0xED then 0x9F else 0xBF⟩ := by
  rw [Start.of, if_neg (by omega), if_neg (by omega), if_neg (by omega), if_pos most]

theorem start_four (least : 0xF0 ≤ b) (most : b < 0xF5) :
    Start.of b = .pending ⟨b - 0xF0, 3, if b = 0xF0 then 0x90 else 0x80, if b = 0xF4 then 0x8F else 0xBF⟩ := by
  rw [Start.of, if_neg (by omega), if_neg (by omega), if_neg (by omega), if_neg (by omega), if_pos most]

theorem decodeFrom_utf8EncodeChar (c : Char) :
    decodeFrom none (String.utf8EncodeChar c ++ rest) = some c :: decodeFrom none rest := by
  have valid : c.val.toNat < 0xD800 ∨ 0xDFFF < c.val.toNat ∧ c.val.toNat < 0x110000 := c.valid
  have same : Char.ofNat c.val.toNat = c := Char.ofNat_toNat c
  rw [String.utf8EncodeChar]
  generalize c.val.toNat = v at *
  have read {n : Nat} (value : n = v) :
      some (Char.ofNat n) :: decodeFrom none rest = some c :: decodeFrom none rest := by
    rw [value, same]
  split
  · rename_i one
    exact (decodeFrom_byte (Nat.lt_succ_of_le one)).trans (read rfl)
  · split
    · rw [List.cons_append, List.cons_append, List.nil_append,
        decodeFrom_start (by omega) (start_two (by omega) (by omega)),
        decodeFrom_last (by omega) (by omega)]
      exact read (by omega)
    · split
      · rw [List.cons_append, List.cons_append, List.cons_append, List.nil_append,
          decodeFrom_start (by omega) (start_three (by omega) (by omega)),
          decodeFrom_more (by omega) (by constructor <;> split <;> omega) (by decide),
          decodeFrom_last (by omega) (by omega)]
        exact read (by omega)
      · rw [List.cons_append, List.cons_append, List.cons_append, List.cons_append, List.nil_append,
          decodeFrom_start (by omega) (start_four (by omega) (by omega)),
          decodeFrom_more (by omega) (by constructor <;> split <;> omega) (by decide),
          decodeFrom_more (by omega) (by omega) (by decide),
          decodeFrom_last (by omega) (by omega)]
        exact read (by omega)

theorem decodeBytes_utf8 (cs : List Char) : decodeBytes (cs.flatMap String.utf8EncodeChar) = cs.map some := by
  induction cs with
  | nil => rfl
  | cons c cs ih =>
      rw [List.flatMap_cons, decodeBytes, decodeFrom_utf8EncodeChar, ← decodeBytes, ih, List.map_cons]

theorem toList_loop (bytes : ByteArray) (i : Nat) (read : List UInt8) :
    ByteArray.toList.loop bytes i read = read.reverse ++ bytes.data.toList.drop i := by
  fun_induction ByteArray.toList.loop bytes i read with
  | case1 i read inside ih =>
      have there : i < bytes.data.toList.length := inside
      rw [ih, List.drop_eq_getElem_cons there, List.reverse_cons,
        List.append_assoc, List.singleton_append]
      congr 2
      exact getElem!_pos bytes.data i inside
  | case2 i read past =>
      have none_left : bytes.data.toList.length ≤ i := Nat.not_lt.mp past
      rw [List.drop_eq_nil_of_le none_left, List.append_nil]

theorem toList_toUTF8 (text : String) :
    text.toUTF8.toList = text.toList.flatMap String.utf8EncodeChar := by
  rw [ByteArray.toList, toList_loop, String.toUTF8_eq_toByteArray, ← String.utf8Encode_toList]
  exact List.toList_data_toByteArray

/-- A text is read back from its bytes. -/
theorem decodeWith_utf8 (stain : Char) (text : String) :
    decodeWith stain text.toUTF8.toList = text.toList := by
  rw [decodeWith, toList_toUTF8, decodeBytes_utf8, List.map_map]
  exact List.map_id _

end UsageBoard.Text
