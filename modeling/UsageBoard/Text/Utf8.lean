/-!
# Bytes as text

Bytes are read as UTF-8.  Where they are no text, the longest start of a character is left out as a
whole, and then each other byte by itself.
-/

namespace UsageBoard.Text

structure Pending where
  value : Nat
  missing : Nat
  /-- The least and the greatest next byte. -/
  low : Nat
  high : Nat

inductive Start where
  | char (c : Char)
  | pending (p : Pending)
  | invalid

/-- What a byte starts.  The bounds of the second byte leave out long forms, surrogates and numbers
beyond the last character. -/
def Start.of (b : Nat) : Start :=
  if b < 0x80 then .char (Char.ofNat b)
  else if b < 0xC2 then .invalid
  else if b < 0xE0 then .pending ⟨b - 0xC0, 1, 0x80, 0xBF⟩
  else if b < 0xF0 then
    .pending ⟨b - 0xE0, 2, if b = 0xE0 then 0xA0 else 0x80, if b = 0xED then 0x9F else 0xBF⟩
  else if b < 0xF5 then
    .pending ⟨b - 0xF0, 3, if b = 0xF0 then 0x90 else 0x80, if b = 0xF4 then 0x8F else 0xBF⟩
  else .invalid

/-- Reads bytes after the start of a character, if there is one; `none` stands for what is no
text. -/
def decodeFrom : Option Pending → List UInt8 → List (Option Char)
  | none, [] => []
  | some _, [] => [none]
  | pending, byte :: rest =>
      let b := byte.toNat
      let afresh (lost : List (Option Char)) : List (Option Char) :=
        match Start.of b with
        | .char c => lost ++ some c :: decodeFrom none rest
        | .pending p => lost ++ decodeFrom (some p) rest
        | .invalid => lost ++ none :: decodeFrom none rest
      match pending with
      | none => afresh []
      | some p =>
          if p.low ≤ b ∧ b ≤ p.high then
            let value := 64 * p.value + (b - 0x80)
            if p.missing ≤ 1 then some (Char.ofNat value) :: decodeFrom none rest
            else decodeFrom (some ⟨value, p.missing - 1, 0x80, 0xBF⟩) rest
          else afresh [none]

def decodeBytes (bytes : List UInt8) : List (Option Char) := decodeFrom none bytes

/-- The characters of bytes, with another one in place of what is no text. -/
def decodeWith (stain : Char) (bytes : List UInt8) : List Char :=
  (decodeBytes bytes).map fun c => c.getD stain

/-- The text of bytes, with replacement characters in place of what is no text. -/
def shownText (bytes : ByteArray) : String := String.ofList (decodeWith '\ufffd' bytes.toList)

end UsageBoard.Text
