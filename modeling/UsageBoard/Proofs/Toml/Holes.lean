import UsageBoard.Pairs
import UsageBoard.Proofs.Toml.Lines

/-!
# Values that no line looks at

A value that was assigned in a TOML text is closed: later lines can neither change it nor look into it.
So they do the same whatever the value is.  A `Hole` is the place of a value in the tables, and tables
with a hole are filled with any value.

## Main statements

* `uniform_within`, `uniform_define`, `uniform_defineElement`, `uniform_assign`: what a line changes does
  not depend on the value in a hole.
* `ReadsAround.lineFrom?`: nor does what is read of a line.
* `reach?_fill`: nor does what a whole text reaches.
-/

namespace UsageBoard.Toml

open UsageBoard.Document (Node)

variable {node : Node} {key : String}

/-! ## Slots -/

/-- The place of a key among members, the first of that key. -/
structure Slot where
  before : Members
  key : String
  after : Members
  first : ∀ member ∈ before, member.1 ≠ key

namespace Slot

variable (slot : Slot)

def fill (entry : Entry) : Members := slot.before ++ (slot.key, entry) :: slot.after

theorem lookup_fill (entry : Entry) : (slot.fill entry).lookup slot.key = some entry :=
  List.lookup_eq_some_iff.mpr
    ⟨slot.before, slot.after, rfl, fun member there => bne_iff_ne.mpr (slot.first member there).symm⟩

theorem lookup_fill_of_ne {slot : Slot} (other : key ≠ slot.key) (entry : Entry) :
    (slot.fill entry).lookup key = (slot.before ++ slot.after).lookup key := by
  rw [fill, List.lookup_append, List.lookup_append, lookup_cons_eq_ite, if_neg (by simpa using other)]

end Slot

namespace Members

/-- What is put at a key takes one place, whatever it is. -/
theorem exists_slot_put (key : String) (members : Members) :
    ∃ slot : Slot, slot.key = key ∧ ∀ entry, members.put key entry = slot.fill entry := by
  induction members with
  | nil => exact ⟨⟨[], key, [], nofun⟩, rfl, fun _ => rfl⟩
  | cons member members ih =>
      by_cases there : member.1 = key
      · exact ⟨⟨[], key, members, nofun⟩, rfl, fun entry => if_pos there⟩
      · obtain ⟨slot, rfl, puts⟩ := ih
        refine ⟨⟨member :: slot.before, slot.key, slot.after, ?_⟩, rfl, fun entry => ?_⟩
        · exact List.forall_mem_cons.mpr ⟨there, slot.first⟩
        · rw [put, if_neg there, puts]
          rfl

theorem put_fill (slot : Slot) (entry other : Entry) :
    (slot.fill entry).put slot.key other = slot.fill other := by
  obtain ⟨before, key, after, first⟩ := slot
  dsimp only [Slot.fill]
  induction before with
  | nil => exact if_pos rfl
  | cons member before ih =>
      obtain ⟨other_key, first⟩ := List.forall_mem_cons.mp first
      rw [List.cons_append, put, if_neg other_key, ih first]
      rfl

theorem exists_put_fill {slot : Slot} (other : key ≠ slot.key) (added : Entry) :
    ∃ later : Slot, later.key = slot.key ∧ ∀ entry, (slot.fill entry).put key added = later.fill entry := by
  obtain ⟨before, own, after, first⟩ := slot
  dsimp only at other
  induction before with
  | nil =>
      refine ⟨⟨[], own, after.put key added, nofun⟩, rfl, fun entry => ?_⟩
      exact if_neg other.symm
  | cons member before ih =>
      obtain ⟨other_key, first⟩ := List.forall_mem_cons.mp first
      by_cases there : member.1 = key
      · refine ⟨⟨(key, added) :: before, own, after, ?_⟩, rfl, fun entry => if_pos there⟩
        exact List.forall_mem_cons.mpr ⟨other, first⟩
      · obtain ⟨later, same, puts⟩ := ih first
        refine ⟨⟨member :: later.before, later.key, later.after, ?_⟩, same, fun entry => ?_⟩
        · exact List.forall_mem_cons.mpr ⟨same ▸ other_key, later.first⟩
        · exact (if_neg there).trans (congrArg (member :: ·) (puts entry))

end Members

/-! ## Holes -/

/-- The place of a value in tables that stand in each other. -/
inductive Hole where
  | value (slot : Slot)
  | table (slot : Slot) (origin : Origin) (inner : Hole)

namespace Hole

def fill (node : Node) : Hole → Members
  | value slot => slot.fill (.value node)
  | table slot origin inner => slot.fill (.table origin (inner.fill node))

/-- The keys that lead to the value. -/
def path : Hole → List String
  | value slot => [slot.key]
  | table slot _ inner => slot.key :: inner.path

/-- The place of the first key. -/
def slot : Hole → Slot
  | value slot => slot
  | table slot _ _ => slot

/-- The entry of the first key. -/
def entry (node : Node) : Hole → Entry
  | value _ => .value node
  | table _ origin inner => .table origin (inner.fill node)

theorem fill_eq (hole : Hole) (node : Node) : hole.fill node = hole.slot.fill (hole.entry node) := by
  cases hole <;> rfl

/-- The same way from another place. -/
def moved (later : Slot) : Hole → Hole
  | value _ => value later
  | table _ origin inner => table later origin inner

theorem fill_moved (later : Slot) (hole : Hole) (node : Node) :
    (hole.moved later).fill node = later.fill (hole.entry node) := by
  cases hole <;> rfl

theorem path_moved {later : Slot} {hole : Hole} (same : later.key = hole.slot.key) :
    (hole.moved later).path = hole.path := by
  cases hole with
  | value slot => exact congrArg (fun key => [key]) same
  | table slot origin inner => exact congrArg (· :: inner.path) same

end Hole

/-- A change that does not depend on the value in a hole. -/
def Uniform (change : Members → Option Members) : Prop :=
  ∀ (hole : Hole) (node : Node) (changed : Members), change (hole.fill node) = some changed →
    ∃ later : Hole, later.path = hole.path ∧ ∀ node, change (hole.fill node) = some (later.fill node)

namespace Members

/-- Changes the entry of a key, which may be absent. -/
def atKey (key : String) (change : Option Entry → Option Entry) (members : Members) : Option Members :=
  (change (members.lookup key)).map fun entry => members.put key entry

/-- A change of an entry does not depend on the value in a hole, if it cannot change a value and does not
depend on the value in a hole further in. -/
theorem uniform_atKey {change : Option Entry → Option Entry}
    (closed : ∀ node, change (some (.value node)) = none)
    (inside : ∀ (origin : Origin) (hole : Hole) (node : Node) (changed : Entry),
      change (some (.table origin (hole.fill node))) = some changed →
        ∃ (origin' : Origin) (later : Hole), later.path = hole.path ∧
          ∀ node, change (some (.table origin (hole.fill node))) = some (.table origin' (later.fill node))) :
    Uniform (atKey key change) := by
  intro hole node changed read
  by_cases own : key = hole.slot.key
  · subst own
    simp only [atKey, Hole.fill_eq, Slot.lookup_fill, put_fill] at read ⊢
    obtain ⟨entry, read, -⟩ := Option.map_eq_some_iff.mp read
    cases hole with
    | value slot => rw [Hole.entry, closed] at read; cases read
    | table slot origin inner =>
        obtain ⟨origin', later, path, goes_on⟩ := inside origin inner node entry read
        refine ⟨.table slot origin' later, congrArg (slot.key :: ·) path, fun node => ?_⟩
        rw [Hole.entry, goes_on]
        rfl
  · simp only [atKey, Hole.fill_eq, Slot.lookup_fill_of_ne own] at read ⊢
    obtain ⟨entry, read, -⟩ := Option.map_eq_some_iff.mp read
    obtain ⟨slot, same, puts⟩ := exists_put_fill own entry
    refine ⟨hole.moved slot, Hole.path_moved same, fun node => ?_⟩
    rw [read, Option.map_some, puts, ← Hole.fill_eq, Hole.fill_moved]

/-! ### The changes of a line -/

/-- The entry that a header gives to its key. -/
def defined? : Option Entry → Option Entry
  | none => some (.table .header [])
  | some (.table .passed inner) => some (.table .header inner)
  | some _ => none

theorem define_eq (key : String) : define key = atKey key defined? := by
  funext members
  rw [define, atKey]
  cases members.lookup key with
  | none => rfl
  | some entry =>
      cases entry with
      | table origin inner => cases origin <;> rfl
      | _ => rfl

theorem uniform_define (key : String) : Uniform (define key) := by
  rw [define_eq]
  refine uniform_atKey (fun _ => rfl) fun origin hole node changed read => ?_
  cases origin with
  | passed => exact ⟨.header, hole, rfl, fun _ => rfl⟩
  | _ => cases read

/-- The entry that the header of a further table gives to its key. -/
def extended? : Option Entry → Option Entry
  | none => some (.tables [.table .header []])
  | some (.tables elements) => some (.tables (.table .header [] :: elements))
  | some _ => none

theorem defineElement_eq (key : String) : defineElement key = atKey key extended? := by
  funext members
  rw [defineElement, atKey]
  cases members.lookup key with
  | none => rfl
  | some entry => cases entry <;> rfl

theorem uniform_defineElement (key : String) : Uniform (defineElement key) := by
  rw [defineElement_eq]
  exact uniform_atKey (fun _ => rfl) nofun

theorem map_put (key : String) (members : Members) (entry : Members → Entry) (inner? : Option Members) :
    (inner?.map fun inner => members.put key (entry inner)) =
      (inner?.map entry).map fun entry => members.put key entry := by
  rw [Option.map_map]
  rfl

/-- An entry in which a table was changed. -/
def changed? (change : Members → Option Members) : Option Entry → Option Entry
  | none => (change []).map (Entry.table .passed)
  | some (.table origin inner) => (change inner).map (Entry.table origin)
  | some (.tables (.table origin inner :: elements)) =>
      (change inner).map fun inner => .tables (.table origin inner :: elements)
  | some _ => none

theorem within_eq (change : Members → Option Members) (key : String) (path : List String) :
    within change (key :: path) = atKey key (changed? (within change path)) := by
  funext members
  rw [within.eq_def, atKey]
  dsimp only
  cases members.lookup key with
  | none => exact map_put key members (Entry.table .passed) _
  | some entry =>
      cases entry with
      | value node => rfl
      | table origin inner => exact map_put key members (Entry.table origin) _
      | tables elements =>
          cases elements with
          | nil => rfl
          | cons element elements =>
              cases element with
              | table origin inner =>
                  exact map_put key members (fun inner => .tables (.table origin inner :: elements)) _
              | _ => rfl

theorem uniform_within {change : Members → Option Members} (uniform : Uniform change) (path : List String) :
    Uniform (within change path) := by
  induction path with
  | nil => exact uniform
  | cons key path ih =>
      rw [within_eq]
      refine uniform_atKey (fun _ => rfl) fun origin hole node changed read => ?_
      obtain ⟨inner, read, -⟩ := Option.map_eq_some_iff.mp read
      obtain ⟨later, same, goes_on⟩ := ih hole node inner read
      exact ⟨origin, later, same, fun node => congrArg (Option.map (Entry.table origin)) (goes_on node)⟩

/-- The entry of a key with a value that has just been assigned. -/
def assigned? (node : Node) : Option Entry → Option Entry
  | none => some (.value node)
  | some _ => none

theorem assign_nil_eq (node : Node) (key : String) : assign node [] key = atKey key (assigned? node) := by
  funext members
  rw [assign, atKey]
  cases members.lookup key <;> rfl

/-- The entry of the first of some keys, below which a value has been assigned. -/
def assignedBelow? (node : Node) (path : List String) (key : String) : Option Entry → Option Entry
  | none => (assign node path key []).map (Entry.table .dotted)
  | some (.table origin inner) =>
      if admits (!path.isEmpty) origin then (assign node path key inner).map (Entry.table origin) else none
  | some _ => none

theorem assign_cons_eq (node : Node) (first : String) (path : List String) (key : String) :
    assign node (first :: path) key = atKey first (assignedBelow? node path key) := by
  funext members
  rw [assign.eq_def, atKey]
  dsimp only
  cases members.lookup first with
  | none => exact map_put first members (Entry.table .dotted) _
  | some entry =>
      cases entry with
      | table origin inner =>
          dsimp only [assignedBelow?]
          rw [apply_ite (Option.map _), ← map_put]
          rfl
      | _ => rfl

theorem uniform_assign (value : Node) (path : List String) (key : String) :
    Uniform (assign value path key) := by
  induction path with
  | nil =>
      rw [assign_nil_eq]
      exact uniform_atKey (fun _ => rfl) nofun
  | cons first path ih =>
      rw [assign_cons_eq]
      refine uniform_atKey (fun _ => rfl) fun origin hole node changed read => ?_
      dsimp only [assignedBelow?] at read ⊢
      split at read
      · rename_i admitted
        obtain ⟨inner, read, -⟩ := Option.map_eq_some_iff.mp read
        obtain ⟨later, same, goes_on⟩ := ih hole node inner read
        refine ⟨origin, later, same, fun node => ?_⟩
        rw [if_pos admitted, goes_on]
        rfl
      · cases read

end Members

/-! ## Values in a table of the root -/

section Nested

variable {first : String} {root inner : Members} {origin : Origin}

/-- A value that is assigned to a key of an open table leaves a hole in its place. -/
theorem exists_hole_of_assign (opened : root.lookup first = some (.table origin inner))
    (assigned : root.within (Members.assign node [] key) [first] ≠ none) :
    ∃ hole : Hole, hole.path = [first, key] ∧
      ∀ node, root.within (Members.assign node [] key) [first] = some (hole.fill node) := by
  obtain ⟨inside, rfl, puts⟩ := Members.exists_slot_put key inner
  obtain ⟨slot, rfl, puts_inner⟩ := Members.exists_slot_put first root
  have changes (node : Node) : root.within (Members.assign node [] inside.key) [slot.key] =
      (Members.assign node [] inside.key inner).map fun inner => root.put slot.key (.table origin inner) := by
    rw [Members.within_eq, Members.atKey, opened, Members.map_put]
    rfl
  rw [changes, ne_eq, Option.map_eq_none_iff, Members.assign] at assigned
  split at assigned
  · exact absurd rfl assigned
  · rename_i absent
    refine ⟨.table slot origin (.value inside), rfl, fun node => ?_⟩
    rw [changes, Members.assign, if_neg absent, Option.map_some, puts, puts_inner]
    rfl

end Nested

/-! ## Nodes -/

theorem exists_insertSorted (key : String) (nodes : List (String × Node)) :
    ∃ before after, ∀ node, insertSorted key node nodes = before ++ (key, node) :: after := by
  induction nodes with
  | nil => exact ⟨[], [], fun _ => rfl⟩
  | cons member nodes ih =>
      by_cases less : key < member.1
      · exact ⟨[], member :: nodes, fun _ => if_pos less⟩
      · obtain ⟨before, after, inserts⟩ := ih
        refine ⟨member :: before, after, fun node => ?_⟩
        exact (if_neg less).trans (congrArg (member :: ·) (inserts node))

theorem exists_insertSorted_append (other : String) (found : Node) (before after : List (String × Node))
    (key : String) :
    ∃ before' after', ∀ node,
      insertSorted other found (before ++ (key, node) :: after) = before' ++ (key, node) :: after' := by
  induction before with
  | nil =>
      by_cases less : other < key
      · exact ⟨[(other, found)], after, fun _ => if_pos less⟩
      · exact ⟨[], insertSorted other found after, fun _ => if_neg less⟩
  | cons member before ih =>
      by_cases less : other < member.1
      · exact ⟨(other, found) :: member :: before, after, fun _ => if_pos less⟩
      · obtain ⟨before', after', inserts⟩ := ih
        refine ⟨member :: before', after', fun node => ?_⟩
        exact (if_neg less).trans (congrArg (member :: ·) (inserts node))

/-- Where the members are sorted, too, an entry takes one place, whatever it is. -/
theorem Slot.exists_memberNodes (slot : Slot) :
    ∃ before after, ∀ entry, memberNodes (slot.fill entry) = before ++ (slot.key, entry.toNode) :: after := by
  obtain ⟨front, key, back, first⟩ := slot
  dsimp only [Slot.fill]
  clear first
  induction front with
  | nil =>
      obtain ⟨before, after, inserts⟩ := exists_insertSorted key (memberNodes back)
      refine ⟨before, after, fun entry => ?_⟩
      rw [List.nil_append, memberNodes, inserts]
  | cons member front ih =>
      obtain ⟨before, after, nodes⟩ := ih
      obtain ⟨before', after', inserts⟩ :=
        exists_insertSorted_append member.1 member.2.toNode before after key
      refine ⟨before', after', fun entry => ?_⟩
      rw [List.cons_append, memberNodes, nodes, inserts]

theorem Slot.exists_toNode (slot : Slot) :
    ∃ before after, ∀ origin entry,
      Entry.toNode (.table origin (slot.fill entry)) =
        .table (before ++ (some slot.key, entry.toNode) :: after) := by
  obtain ⟨before, after, nodes⟩ := slot.exists_memberNodes
  refine ⟨before.map fun member => (some member.1, member.2),
    after.map fun member => (some member.1, member.2), fun origin entry => ?_⟩
  rw [Entry.toNode, nodes, List.map_append, List.map_cons]

/-- The document of tables with a hole. -/
theorem Hole.exists_toNode {first : String} (hole : Hole) (path : hole.path = [first, key]) :
    ∃ before after inside_before inside_after, ∀ node,
      (hole.fill node).toNode =
        .table (before ++
          (some first, .table (inside_before ++ (some key, node) :: inside_after)) :: after) := by
  cases hole with
  | value slot => cases path
  | table slot origin inner =>
      obtain ⟨rfl, rest⟩ := List.cons.inj path
      cases inner with
      | value inside =>
          obtain rfl := (List.cons.inj rest).1
          obtain ⟨before, after, nodes⟩ := slot.exists_toNode
          obtain ⟨inside_before, inside_after, inside_nodes⟩ := inside.exists_toNode
          refine ⟨before, after, inside_before, inside_after, fun node => ?_⟩
          rw [Members.toNode, Hole.fill, nodes, Hole.fill, inside_nodes, Entry.toNode]
      | table inside origin' inner =>
          cases inner <;> cases (List.cons.inj rest).2

/-! ## Lines -/

variable {fuel : Nat} {hole : Hole} {cs : List Char} {selected next : List String} {root : Members}

/-- What is read into tables does not depend on the value in a hole of them. -/
def ReadsAround (read : Members → Option (Reached × List Char)) : Prop :=
  ∀ (hole : Hole) (node : Node) (next : List String) (root : Members) (rest : List Char),
    read (hole.fill node) = some ((next, root), rest) →
      ∃ later : Hole, later.path = hole.path ∧
        ∀ node, read (hole.fill node) = some ((next, later.fill node), rest)

namespace ReadsAround

theorem none : ReadsAround fun _ => none := nofun

theorem unchanged (selected : List String) (cs : List Char) :
    ReadsAround fun root => some ((selected, root), cs) := by
  intro hole node next root rest read
  obtain ⟨⟨rfl, rfl⟩, rfl⟩ : (selected = next ∧ hole.fill node = root) ∧ cs = rest := by simpa using read
  exact ⟨hole, rfl, fun _ => rfl⟩

theorem changed {change : Members → Option Members} (uniform : Uniform change) (selected : List String)
    (cs : List Char) : ReadsAround fun root => (change root).bind fun root => some ((selected, root), cs) := by
  intro hole node next root rest read
  obtain ⟨changed, changes, same⟩ := Option.bind_eq_some_iff.mp read
  obtain ⟨⟨rfl, rfl⟩, rfl⟩ : (selected = next ∧ changed = root) ∧ cs = rest := by simpa using same
  obtain ⟨later, path, goes_on⟩ := uniform hole node changed changes
  exact ⟨later, path, fun node => congrArg (Option.bind · _) (goes_on node)⟩

theorem bind {α : Type} (found : Option α) {next : α → Members → Option (Reached × List Char)}
    (goes_on : ∀ value, ReadsAround (next value)) :
    ReadsAround fun root => found.bind fun value => next value root := by
  cases found with
  | none => exact none
  | some value => exact goes_on value

theorem onHead {c : Char} {yes no : Members → List Char → Option (Reached × List Char)}
    (begins : ∀ rest, ReadsAround fun root => yes root rest) (else_ : ReadsAround fun root => no root cs) :
    ReadsAround fun root => onHead c (yes root) (no root) cs := by
  cases cs with
  | nil => exact else_
  | cons d rest =>
      by_cases head : d = c
      · subst head
        simpa only [onHead_self] using begins rest
      · simpa only [onHead_of_ne head] using else_

theorem openAt {change : String → Members → Option Members} (uniform : ∀ key, Uniform (change key))
    (key : Key) (cs : List Char) : ReadsAround fun root => openAt change root key cs :=
  changed (Members.uniform_within (uniform key.2) key.1) _ cs

theorem assignAt (fuel : Nat) (selected : List String) (key : Key) (cs : List Char) :
    ReadsAround fun root => assignAt fuel (selected, root) key cs :=
  bind _ fun value =>
    changed (Members.uniform_within (Members.uniform_assign value.1 key.1 key.2) selected) selected value.2

/-- What a line does to the tables does not depend on the value in a hole. -/
theorem lineFrom? (fuel : Nat) (selected : List String) (cs : List Char) :
    ReadsAround fun root => lineFrom? fuel (selected, root) cs := by
  refine onHead (fun rest => onHead (fun inner => ?element) ?table) ?assignment
  case element =>
    exact bind _ fun key =>
      onHead (fun _ => onHead (fun after => openAt Members.uniform_defineElement key.1 after) none) none
  case table =>
    exact bind _ fun key => onHead (fun after => openAt Members.uniform_define key.1 after) none
  case assignment =>
    by_cases ended : (afterLine? cs).isSome
    · simpa only [if_pos ended] using unchanged selected cs
    · simp only [if_neg ended]
      exact bind _ fun key => onHead (fun given => assignAt fuel selected key.1 given) none

end ReadsAround

theorem reachFrom?_fill (read : reachFrom? fuel (selected, hole.fill node) cs = some (next, root)) :
    ∃ later : Hole, later.path = hole.path ∧
      ∀ node, reachFrom? fuel (selected, hole.fill node) cs = some (next, later.fill node) := by
  induction fuel generalizing hole cs selected with
  | zero => cases read
  | succ fuel ih =>
      rw [reachFrom?] at read
      split at read
      · rename_i blank
        obtain ⟨rfl, rfl⟩ : selected = next ∧ hole.fill node = root := by simpa using read
        exact ⟨hole, rfl, fun node => if_pos blank⟩
      · rename_i more
        obtain ⟨⟨⟨opened, tables⟩, after⟩, whole, read⟩ := Option.bind_eq_some_iff.mp read
        obtain ⟨⟨⟨_, _⟩, middle⟩, line, whole⟩ := Option.bind_eq_some_iff.mp whole
        obtain ⟨_, ended, same⟩ := Option.map_eq_some_iff.mp whole
        cases same
        obtain ⟨filled, path, goes_on⟩ :=
          ReadsAround.lineFrom? fuel selected (skipBlanks cs) hole node opened tables middle line
        beta_reduce at goes_on
        have same := line.symm.trans (goes_on node)
        cases same
        obtain ⟨later, later_path, reaches⟩ := ih read
        refine ⟨later, later_path.trans path, fun node => ?_⟩
        rw [reachFrom?, if_neg more, wholeLine?, goes_on, Option.bind_some]
        dsimp only
        rw [ended]
        exact reaches node

/-- What a text reaches does not depend on the value in a hole. -/
theorem reach?_fill (read : reach? (selected, hole.fill node) cs = some (next, root)) :
    ∃ later : Hole, later.path = hole.path ∧
      ∀ node, reach? (selected, hole.fill node) cs = some (next, later.fill node) := reachFrom?_fill read

end UsageBoard.Toml
