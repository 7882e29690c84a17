import UsageBoard.Document.Node

/-!
# Tables in TOML texts

A table is defined once, by a header, by dotted keys or inline, and what may be added to it later
depends on which it was.  Tables are kept by key in the order of definition and become nodes in
the order of their keys.
-/

namespace UsageBoard.Toml

open UsageBoard.Document (Node)

inductive Origin where
  /-- It has a header of its own. -/
  | header
  /-- It is on the way to a table with a header, and may still get one of its own. -/
  | passed
  /-- A dotted key leads through it. -/
  | dotted
deriving DecidableEq, Repr

inductive Entry where
  /-- A value, which is closed: lists and inline tables too. -/
  | value (node : Node)
  | table (origin : Origin) (members : List (String × Entry))
  /-- Tables that have one header each, the latest first. -/
  | tables (elements : List Entry)

abbrev Members := List (String × Entry)

namespace Members

/-- Gives a key its entry, in the place of the one it had. -/
def put (key : String) (entry : Entry) : Members → Members
  | [] => [(key, entry)]
  | other :: rest => if other.1 = key then (key, entry) :: rest else other :: put key entry rest

/-- Changes the table to which the keys of a header lead. -/
def within (change : Members → Option Members) : List String → Members → Option Members
  | [], members => change members
  | key :: path, members =>
      match members.lookup key with
      | none => (within change path []).map fun inner => members.put key (.table .passed inner)
      | some (.table origin inner) =>
          (within change path inner).map fun inner => members.put key (.table origin inner)
      | some (.tables (.table origin inner :: elements)) =>
          (within change path inner).map fun inner =>
            members.put key (.tables (.table origin inner :: elements))
      | some _ => none

def define (key : String) (members : Members) : Option Members :=
  match members.lookup key with
  | none => some (members.put key (.table .header []))
  | some (.table .passed inner) => some (members.put key (.table .header inner))
  | some _ => none

def defineElement (key : String) (members : Members) : Option Members :=
  match members.lookup key with
  | none => some (members.put key (.tables [.table .header []]))
  | some (.tables elements) => some (members.put key (.tables (.table .header [] :: elements)))
  | some _ => none

/-- Whether a dotted key may lead through a table, given whether more keys follow. -/
def admits (more : Bool) : Origin → Bool
  | .dotted => true
  | .passed => more
  | .header => false

def assign (node : Node) : (path : List String) → (key : String) → Members → Option Members
  | [], key, members =>
      if (members.lookup key).isSome then none else some (members.put key (.value node))
  | first :: path, key, members =>
      match members.lookup first with
      | none => (assign node path key []).map fun inner => members.put first (.table .dotted inner)
      | some (.table origin inner) =>
          if admits (!path.isEmpty) origin then
            (assign node path key inner).map fun inner => members.put first (.table origin inner)
          else none
      | some _ => none

end Members

def insertSorted (key : String) (node : Node) : List (String × Node) → List (String × Node)
  | [] => [(key, node)]
  | (other, value) :: rest =>
      if key < other then (key, node) :: (other, value) :: rest
      else (other, value) :: insertSorted key node rest

mutual

def Entry.toNode : Entry → Node
  | .value node => node
  | .table _ members => .table ((memberNodes members).map fun (key, node) => (some key, node))
  | .tables elements => .list (elementNodes elements).reverse

def memberNodes : List (String × Entry) → List (String × Node)
  | [] => []
  | (key, entry) :: rest => insertSorted key (Entry.toNode entry) (memberNodes rest)

def elementNodes : List Entry → List Node
  | [] => []
  | entry :: rest => Entry.toNode entry :: elementNodes rest

end

def Members.toNode (members : Members) : Node := (Entry.table .dotted members).toNode

end UsageBoard.Toml
