/-!
# Paths

A path is a text of names between slashes.
-/

namespace UsageBoard.Files

/-- A path in reverse without the slashes at its end, and without the single points that stand
between them. -/
def dropIdle : List Char → List Char
  | '/' :: rest => dropIdle rest
  | '.' :: '/' :: rest => dropIdle rest
  | rest => rest

/-- The path without its last name: empty for a name alone, and nothing for the root. -/
def parent? (path : String) : Option String :=
  match dropIdle path.toList.reverse with
  | [] => none
  | c :: rest =>
      match (c :: rest).dropWhile (· != '/') with
      | [] => some ""
      | slash :: before =>
          match dropIdle (slash :: before) with
          | [] => some "/"
          | found => some (String.ofList found.reverse)

end UsageBoard.Files
