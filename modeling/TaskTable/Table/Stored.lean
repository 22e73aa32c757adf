import TaskTable.Json.Decode
import TaskTable.Json.Text
import TaskTable.Table.Basic

/-!
# The stored form of tables

Tables as JSON text: the blocks, the variables and the digest of the source. The index is left out.
-/

namespace TaskTable

open Json (Draft)

namespace Transition

/-- The stored form of a transition. -/
def toJson (t : Transition) : Json :=
  .obj [("value", .str t.value), ("target", .str t.target), ("wait", .nat t.wait),
    ("max", .nat t.max), ("exec", .bool t.exec), ("line", .nat t.line)]

/-- The transition that a value stores. -/
def ofDraft? (d : Draft) : Option Transition := do
  let [value, target, wait, max, exec, line] ←
    d.toRecord? ["value", "target", "wait", "max", "exec", "line"] | none
  return {
    value := ← Draft.required Draft.toString? value
    target := ← Draft.required Draft.toString? target
    wait := ← Draft.required Draft.toWord32? wait
    max := ← Draft.required Draft.toWord32? max
    exec := ← Draft.required Draft.toBool? exec
    line := ← Draft.required Draft.toWord64? line }

end Transition

namespace Block

/-- The stored form of a block. -/
def toJson (b : Block) : Json :=
  .obj [("state", .str b.state), ("method", .str b.method), ("timer", .str b.timer),
    ("transitions", .list Transition.toJson b.transitions), ("line", .nat b.line)]

/-- The block that a value stores. -/
def ofDraft? (d : Draft) : Option Block := do
  let [state, method, timer, transitions, line] ←
    d.toRecord? ["state", "method", "timer", "transitions", "line"] | none
  return {
    state := ← Draft.required Draft.toString? state
    method := ← Draft.required Draft.toString? method
    timer := ← Draft.required Draft.toString? timer
    transitions := ← Draft.required (Draft.toList? Transition.ofDraft?) transitions
    line := ← Draft.required Draft.toWord64? line }

end Block

namespace Table

/-- The stored form of a table. -/
def toJson (t : Table) : Json :=
  .obj [("blocks", .list Block.toJson t.blocks), ("variables", .map .str t.bindings),
    ("source_hash", .str t.sourceHash)]

/-- The table that a value stores. It has no index. -/
def ofDraft? (d : Draft) : Option Table := do
  let [blocks, bindings, hash] ← d.toRecord? ["blocks", "variables", "source_hash"] | none
  return {
    blocks := ← Draft.required (Draft.toList? Block.ofDraft?) blocks
    bindings := ← Draft.required (Draft.toMap? Draft.toString?) bindings
    sourceHash := ← Draft.required Draft.toString? hash }

/-- The stored text of a table. -/
def toText (t : Table) : String :=
  t.toJson.toText

/-- The table that a text stores. -/
def ofText? (s : String) : Option Table :=
  (Draft.ofText? s).bind ofDraft?

end Table

end TaskTable
