/-!
# Documents as they are read

A JSON or TOML text is read into a tree of nodes before its meaning is known.  A `Node` also
records where reading failed, because whether a failure matters, and which of two faults is
reported, depends on what is looked for in the tree.
-/

namespace UsageBoard.Document

inductive Node where
  | null
  | bool (value : Bool)
  | integer (value : Int)
  | real (value : Float)
  | text (value : String)
  | list (items : List Node)
  /-- Members in the order of the text; a key without a value as text is `none`. -/
  | table (members : List (Option String × Node))
  /-- A scalar of the right form that denotes no value, such as a number out of range. -/
  | unusable
  /-- The text breaks off or is malformed here; nothing follows in the tree. -/
  | broken
deriving Inhabited

namespace Node

mutual

/-- Whether reading reached the end of the node, so that it can be skipped. -/
def intact : Node → Bool
  | .broken => false
  | .list items => allIntact items
  | .table members => membersIntact members
  | _ => true

def allIntact : List Node → Bool
  | [] => true
  | item :: rest => intact item && allIntact rest

def membersIntact : List (Option String × Node) → Bool
  | [] => true
  | (_, value) :: rest => intact value && membersIntact rest

end

mutual

/-- Whether the whole node has a value and its lists and tables fit in `depth` levels. -/
def usable : (depth : Nat) → Node → Bool
  | _, .broken => false
  | _, .unusable => false
  | depth, .list items => decide (1 < depth) && allUsable (depth - 1) items
  | depth, .table members => decide (1 < depth) && membersUsable (depth - 1) members
  | _, _ => true

def allUsable : (depth : Nat) → List Node → Bool
  | _, [] => true
  | depth, item :: rest => usable depth item && allUsable depth rest

def membersUsable : (depth : Nat) → List (Option String × Node) → Bool
  | _, [] => true
  | depth, (key, value) :: rest => key.isSome && usable depth value && membersUsable depth rest

end

end Node

structure Reading where
  root : Node
  /-- Only blank text follows the root. -/
  complete : Bool

end UsageBoard.Document
