import TaskTable.Json.Basic
import TaskTable.Number.Power
import TaskTable.Recording.Basic
import TaskTable.Table.Basic
import TaskTable.Task.Status
import TaskTable.Timers

/-!
# Tasks

All that has to be kept of a task between two steps. A task is stored as this value and carried on
from it; nothing else about its past matters to a later step.
-/

namespace TaskTable

/-- Where a task is in its life. -/
inductive Phase
  | notStarted
  | running
  | finished
  | terminated
  deriving DecidableEq, Repr

namespace Phase

/-- Every phase. -/
def all : List Phase :=
  [notStarted, running, finished, terminated]

/-- The name of a phase. -/
def name : Phase → String
  | notStarted => "not_started"
  | running => "running"
  | finished => "finished"
  | terminated => "terminated"

/-- The phase with a name. -/
def ofName? (s : String) : Option Phase :=
  all.find? fun p => p.name == s

/-- Whether the task has ended. -/
def isTerminal : Phase → Bool
  | notStarted | running => false
  | finished | terminated => true

end Phase

/-- What is kept of a state across the visits to it. -/
structure StateContext where
  visits : Nat := 0
  firstEntered : Option Instant := none
  lastEntered : Option Instant := none
  /-- Whatever the handlers of the state keep. -/
  data : SortedMap String Json := .empty
  deriving DecidableEq

namespace StateContext

/-- The context after one more visit. -/
def visit (c : StateContext) (now : Instant) : StateContext :=
  { c with
    visits := Number.next32 c.visits
    firstEntered := c.firstEntered <|> some now
    lastEntered := some now }

end StateContext

/-- A task. -/
structure Task where
  id : String
  phase : Phase := .notStarted
  current : Option String := none
  /-- How often each transition was taken, by the line of its declaration. -/
  counts : SortedMap Nat Nat := .empty
  contexts : SortedMap String StateContext := .empty
  timers : Timers := {}
  exit : Option Exit := none
  /-- The version of each component's data. -/
  versions : SortedMap String Nat := .empty
  recording : Recording := {}
  /-- The digest of the table that the task ran under last. -/
  tableHash : String
  createdAt : Instant
  deriving DecidableEq

namespace Task

/-- A task that has not started. -/
def create (id tableHash : String) (now : Instant) : Task :=
  { id, tableHash, createdAt := now, recording := ({} : Recording).markAdded now }

/-- How often the transition declared on a line was taken. -/
def count (t : Task) (line : Nat) : Nat :=
  t.counts.getD line 0

/-- The task with a transition counted once more. -/
def increment (t : Task) (line : Nat) : Task :=
  { t with counts := t.counts.insert line (t.count line + 1) }

/-- The context of a state, which is empty until the state is visited. -/
def context (t : Task) (state : String) : StateContext :=
  t.contexts.getD state {}

/-- The task without the count of the transition that a value takes out of a state: the one declared
for it, else the wildcard's. Also says whether there is one. -/
def clearCount (t : Task) (table : Table) (state value : String) :
    Except TableError (Task × Bool) := do
  let block ← table.block state
  match block.transition? value <|> block.transition? Names.wildcard with
  | some tr => return ({ t with counts := t.counts.erase tr.line }, true)
  | none => return (t, false)

/-- The task without the counts of all transitions out of a state. -/
def clearStateCounts (t : Task) (table : Table) (state : String) : Except TableError Task := do
  let block ← table.block state
  return { t with counts := block.transitions.foldl (fun m tr => m.erase tr.line) t.counts }

end Task

end TaskTable
