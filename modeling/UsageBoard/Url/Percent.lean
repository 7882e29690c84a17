import UsageBoard.Json.Parser

/-!
# Percent encoding

A byte that may not stand in a part of an address is written as a percent sign and two hexadecimal
digits.  Each part has its own set of characters that are encoded; all beyond ASCII are.
-/

namespace UsageBoard.Url

def upperDigit (n : Nat) : Char := (Json.hexDigit n).toUpper

def triple (byte : UInt8) : List Char :=
  ['%', upperDigit (byte.toNat / 16), upperDigit (byte.toNat % 16)]

def bytesOf (c : Char) : List UInt8 := (String.singleton c).toUTF8.toList

/-- Encodes the characters of a set, which holds ASCII characters, and all beyond ASCII. -/
def encode (isEncoded : Char → Bool) (cs : List Char) : List Char :=
  cs.flatMap fun c => if isEncoded c || decide (0x80 ≤ c.toNat) then (bytesOf c).flatMap triple else [c]

def isControl (c : Char) : Bool := decide (c.toNat < 0x20) || c == '\x7f'

def inFragment (c : Char) : Bool := isControl c || " \"<>\x60".toList.contains c

def inPath (c : Char) : Bool := inFragment c || "#?\x7b\x7d".toList.contains c

def inUserInfo (c : Char) : Bool := inPath c || "/:;=@[\\]^|".toList.contains c

/-- What is encoded in a query; an apostrophe only where the scheme has hosts of the net. -/
def inQuery (special : Bool) (c : Char) : Bool :=
  isControl c || " \"#<>".toList.contains c || (special && c == '\'')

/-- Replaces the triples by their bytes and all else by its bytes. -/
def decode : List Char → List UInt8
  | [] => []
  | '%' :: a :: b :: rest =>
      match Json.hexValue? a, Json.hexValue? b with
      | some high, some low => UInt8.ofNat (16 * high + low) :: decode rest
      | _, _ => bytesOf '%' ++ decode (a :: b :: rest)
  | c :: rest => bytesOf c ++ decode rest

/-- A character of a form's name or value; a blank is written as a plus sign. -/
def formByte (byte : UInt8) : List Char :=
  let c := Char.ofNat byte.toNat
  if byte = 0x20 then ['+']
  else if byte < 0x80 ∧ (c.isAlphanum ∨ "*-._".toList.contains c) then [c]
  else triple byte

def formText (text : String) : List Char := text.toUTF8.toList.flatMap formByte

def formPair (name value : String) : List Char := formText name ++ '=' :: formText value

def formQuery (pairs : List (String × String)) : String :=
  "&".intercalate (pairs.map fun (name, value) => String.ofList (formPair name value))

end UsageBoard.Url
