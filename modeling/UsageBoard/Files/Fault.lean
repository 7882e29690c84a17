/-!
# Faults of files
-/

namespace UsageBoard.Files

inductive Fault where
  | notFound
  | notFolder
  | isFolder
  | alreadyExists
  | nameTooLong
  /-- The path holds a character that no path may hold. -/
  | badPath
  | notText
  | other (text : String)
deriving DecidableEq, Repr

/-- The message of a fault, in the words of the operating system where it comes from there. -/
def Fault.message : Fault → String
  | notFound => "No such file or directory (os error 2)"
  | notFolder => "Not a directory (os error 20)"
  | isFolder => "Is a directory (os error 21)"
  | alreadyExists => "File exists (os error 17)"
  | nameTooLong => "File name too long (os error 36)"
  | badPath => "file name contained an unexpected NUL byte"
  | notText => "stream did not contain valid UTF-8"
  | other text => text

def text? (contents : ByteArray) : Except Fault String :=
  match String.fromUTF8? contents with
  | some text => .ok text
  | none => .error .notText

end UsageBoard.Files
