import TaskTable.SortedMap
import TaskTable.Table.Block

/-!
# Tables

A table is a list of blocks, the first of which is where a task starts, together with the variables
assigned at its top level and the digest of the text it came from.

Blocks are found by name through an index. The index is no part of a table's written form: a table
that has been read back has none until it is indexed again, and is then searched from the front.
-/

namespace TaskTable

/-- A table of states. -/
structure Table where
  blocks : List Block := []
  /-- The place of each block, by its state. -/
  index : SortedMap String Nat := .empty
  /-- The values of the table's variables. -/
  bindings : SortedMap String String := .empty
  /-- The digest of the table's text, empty for a table that was not compiled. -/
  sourceHash : String := ""
  deriving DecidableEq

namespace Table

/-- The table without blocks. -/
def empty : Table := {}

instance : Inhabited Table := ⟨empty⟩

/-- Whether the index has as many names as there are blocks. -/
def isIndexed (t : Table) : Bool :=
  t.index.size == t.blocks.length

/-- The index of a list of blocks; of two blocks with one name the later one counts. -/
def indexOf (blocks : List Block) : SortedMap String Nat :=
  .ofList (blocks.zipIdx.map fun e => (e.1.state, e.2))

/-- The table with its index made anew. -/
def reindex (t : Table) : Table :=
  { t with index := indexOf t.blocks }

/-- The table as it is read back from its written form, where the index is left out. -/
def withoutIndex (t : Table) : Table :=
  { t with index := .empty }

/-- The block of a state. -/
def block? (t : Table) (state : String) : Option Block :=
  match t.index.get? state with
  | some i => t.blocks[i]?
  | none => if t.isIndexed then none else t.blocks.find? fun b => b.state == state

/-- The block of a state, or the fault of having none. -/
def block (t : Table) (state : String) : Except TableError Block :=
  match t.block? state with
  | some b => .ok b
  | none => .error (.missingBlock state)

/-- Whether a state has a block. -/
def hasBlock (t : Table) (state : String) : Bool :=
  (t.block? state).isSome

/-- Whether a state can be entered as a matter of course: it is `finish` or has a block. -/
def isKnown (t : Table) (state : String) : Bool :=
  state == Names.finish || t.hasBlock state

/-- The table with one more block at its end. A state can be declared once; an index that does not
fit the blocks is made anew first. -/
def addBlock (t : Table) (b : Block) : Except TableError Table :=
  let t := if t.isIndexed then t else t.reindex
  match t.index.get? b.state with
  | some i => .error (.duplicateBlock b.state ((t.blocks[i]?).elim 0 (·.line)))
  | none =>
    .ok { t with blocks := t.blocks ++ [b], index := t.index.insert b.state t.blocks.length }

/-- The table after an attempt to add a block, and what came of it. A block that is refused leaves
the blocks as they are, but an index that does not fit them has been made anew all the same. -/
def tryAddBlock (t : Table) (b : Block) : Table × Except TableError Unit :=
  match t.addBlock b with
  | .ok t => (t, .ok ())
  | .error e => (if t.isIndexed then t else t.reindex, .error e)

/-- The states that have a block, in order. -/
def states (t : Table) : List String :=
  t.blocks.map (·.state)

/-- The selector methods of the blocks, each at its first use. -/
def methods (t : Table) : List String :=
  t.blocks.foldl (fun ms b => if ms.contains b.method then ms else ms ++ [b.method]) []

/-- The state in which a task starts: that of the first block. -/
def startState (t : Table) : Except TableError String :=
  match t.blocks with
  | b :: _ => .ok b.state
  | [] => .error .noStartState

/-- The table with a variable set. -/
def setVariable (t : Table) (name value : String) : Table :=
  { t with bindings := t.bindings.insert name value }

end Table

end TaskTable
