import UsageBoard.Files.Fault
import UsageBoard.Files.Path
import UsageBoard.Text.Parts

/-!
# A tree of files

`Tree` is a file system as a value: what there is at each place.  A place is the list of names that
leads to it from the root, which is always a folder.
-/

namespace UsageBoard.Files

inductive Entry where
  | folder
  | file (contents : ByteArray)

abbrev Place := List String

structure Tree where
  entries : List (Place × Entry)

namespace Tree

def empty : Tree := ⟨[]⟩

def at? (tree : Tree) (place : Place) : Option Entry :=
  if place.isEmpty then some .folder else tree.entries.lookup place

/-- Puts something at a place, instead of what was there. -/
def put (tree : Tree) (place : Place) (entry : Entry) : Tree :=
  ⟨(place, entry) :: tree.entries.filter fun other => other.1 != place⟩

def longestName : Nat := 255

/-- Follows names from a place; every place on the way must be a folder. -/
def follow (tree : Tree) : Place → List String → Except Fault Place
  | place, [] => .ok place
  | place, name :: names =>
      match tree.at? place with
      | none => .error .notFound
      | some (.file _) => .error .notFolder
      | some .folder =>
          if name = "." then follow tree place names
          else if name = ".." then follow tree place.dropLast names
          else if longestName < name.utf8ByteSize then .error .nameTooLong
          else follow tree (place ++ [name]) names

/-- The names of a path; a slash at its end stands for the folder itself. -/
def namesOf (path : String) : List String :=
  ((Text.parts '/' path.toList).filter fun name => !name.isEmpty).map String.ofList ++
    (if path.toList.getLast? = some '/' then ["."] else [])

/-- The place to which a path leads from a folder; there need not be anything there. -/
def locate (tree : Tree) (here : Place) (path : String) : Except Fault Place :=
  if path = "" then .error .notFound
  else if path.toList.contains '\x00' then .error .badPath
  else tree.follow (if path.toList.head? = some '/' then [] else here) (namesOf path)

def find? (tree : Tree) (here : Place) (path : String) : Except Fault Entry := do
  match tree.at? (← tree.locate here path) with
  | some entry => return entry
  | none => throw .notFound

def exists? (tree : Tree) (here : Place) (path : String) : Bool :=
  match tree.find? here path with
  | .ok _ => true
  | .error _ => false

def isFolder (tree : Tree) (here : Place) (path : String) : Bool :=
  match tree.find? here path with
  | .ok .folder => true
  | _ => false

def read (tree : Tree) (here : Place) (path : String) : Except Fault ByteArray := do
  match ← tree.find? here path with
  | .file contents => return contents
  | .folder => throw .isFolder

def write (tree : Tree) (here : Place) (path : String) (contents : ByteArray) : Except Fault Tree :=
  match tree.locate here path with
  | .error fault =>
      if path.toList.getLast? = some '/' ∧ fault ≠ .badPath then .error .isFolder else .error fault
  | .ok place =>
      match tree.at? place with
      | some .folder => .error .isFolder
      | _ => .ok (tree.put place (.file contents))

/-- A path without slashes at its end, of which the root keeps its own. -/
def withoutEnd (path : String) : String :=
  match path.toList.reverse.dropWhile (· == '/') with
  | [] => path
  | rest => String.ofList rest.reverse

def makeFolder (tree : Tree) (here : Place) (path : String) : Except Fault Tree := do
  let place ← tree.locate here (withoutEnd path)
  match tree.at? place with
  | some _ => throw .alreadyExists
  | none => return tree.put place .folder

/-- What is left of a fault when the folder is there all the same. -/
def unlessFolder (tree : Tree) (here : Place) (path : String) (fault : Fault) : Except Fault Tree :=
  if tree.isFolder here path then .ok tree else .error fault

/-- Makes a folder and those on the way to it; the fuel bounds their number. -/
def makeFoldersFrom (here : Place) : (fuel : Nat) → (tree : Tree) → (path : String) →
    Except Fault Tree
  | 0, _, _ => .error .notFound
  | fuel + 1, tree, path =>
      if path = "" then .ok tree
      else
        match tree.makeFolder here path with
        | .ok tree => .ok tree
        | .error .notFound =>
            match parent? path with
            | none => .error .notFound
            | some parent => do
                let tree ← makeFoldersFrom here fuel tree parent
                match tree.makeFolder here path with
                | .ok tree => return tree
                | .error fault => tree.unlessFolder here path fault
        | .error fault => tree.unlessFolder here path fault

def makeFolders (tree : Tree) (here : Place) (path : String) : Except Fault Tree :=
  makeFoldersFrom here (path.length + 1) tree path

end Tree

end UsageBoard.Files
