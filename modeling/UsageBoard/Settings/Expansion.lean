import UsageBoard.Environment
import UsageBoard.Text.Parts

/-!
# References to variables in settings

A reference is a dollar sign and a name in braces.  `expand` replaces the references of each line
that start before its first number sign, since what follows that is taken for a comment.
-/

namespace UsageBoard.Settings

/-- Whether the text after an opening brace has a name and a closing brace. -/
def closesName (cs : List Char) : Bool :=
  cs.contains '\x7d' && cs.head? != some '\x7d'

/-- Replaces the references of a line; the error is the name of the first variable that is not
set.  Inside a reference, `name` holds what was read of its name, in reverse. -/
def expandFrom (env : Environment) : (name : Option (List Char)) → List Char →
    Except String (List Char)
  | _, [] => .ok []
  | some name, c :: rest =>
      if c = '\x7d' then
        match env.text? (String.ofList name.reverse) with
        | none => .error (String.ofList name.reverse)
        | some value =>
            if name.contains '#' then .ok (value.toList ++ rest)
            else (expandFrom env none rest).map (value.toList ++ ·)
      else expandFrom env (some (c :: name)) rest
  | none, '$' :: '\x7b' :: rest =>
      if closesName rest then expandFrom env (some []) rest
      else (expandFrom env none ('\x7b' :: rest)).map ('$' :: ·)
  | none, c :: rest =>
      if c = '#' then .ok (c :: rest) else (expandFrom env none rest).map (c :: ·)

def expandLine (env : Environment) (line : List Char) : Except String (List Char) :=
  expandFrom env none line

def expand (env : Environment) (text : String) : Except String String :=
  ((Text.lines text.toList).mapM (expandLine env)).map fun lines =>
    String.ofList (Text.join '\n' lines)

end UsageBoard.Settings
