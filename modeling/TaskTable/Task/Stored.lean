import TaskTable.Json.Text
import TaskTable.Recording.Stored
import TaskTable.Task.Basic

/-!
# The stored form of tasks

Tasks as JSON text. Counts are keyed by their line, written as a text.
-/

namespace TaskTable

open Json (Draft)

/-- The status with a stored name. -/
def Status.ofDraft? (d : Draft) : Option Status :=
  d.toName?.bind Status.ofName?

namespace Exit

/-- The stored form of an exit. -/
def toJson (e : Exit) : Json :=
  .obj [("status", .str e.status.name), ("message", .option .str e.message)]

/-- The exit that a value stores. -/
def ofDraft? (d : Draft) : Option Exit := do
  let [status, message] ← d.toRecord? ["status", "message"] | none
  return {
    status := ← Draft.required Status.ofDraft? status
    message := ← Draft.optional Draft.toString? message }

end Exit

/-- The stored form of a step's result. -/
def StepResult.toJson (r : StepResult) : Json :=
  .obj [("wait", .nat r.wait), ("complete", .bool r.complete), ("status", .str r.status.name),
    ("message", .option .str r.message)]

namespace StateContext

/-- The stored form of a context. -/
def toJson (c : StateContext) : Json :=
  .obj [("visits", .nat c.visits), ("first_entered_at", .option Instant.toJson c.firstEntered),
    ("last_entered_at", .option Instant.toJson c.lastEntered), ("data", .map id c.data)]

/-- The context that a value stores. -/
def ofDraft? (d : Draft) : Option StateContext := do
  let [visits, first, last, data] ←
    d.toRecord? ["visits", "first_entered_at", "last_entered_at", "data"] | none
  return {
    visits := ← Draft.required Draft.toWord32? visits
    firstEntered := ← Draft.optional Draft.toInstant? first
    lastEntered := ← Draft.optional Draft.toInstant? last
    data := ← Draft.required (Draft.toMap? fun a => a.toJson?.map Json.canonical) data }

end StateContext

namespace RunningTimer

/-- The stored form of a running timer. -/
def toJson (a : RunningTimer) : Json :=
  .obj [("name", .str a.name), ("since", a.since.toJson)]

/-- The running timer that a value stores. -/
def ofDraft? (d : Draft) : Option RunningTimer := do
  let [name, since] ← d.toRecord? ["name", "since"] | none
  return ⟨← Draft.required Draft.toString? name, ← Draft.required Draft.toInstant? since⟩

end RunningTimer

namespace Timers

/-- The stored form of timers. -/
def toJson (t : Timers) : Json :=
  .obj [("totals", .map .nat t.totals), ("active", .option RunningTimer.toJson t.active)]

/-- The timers that a value stores. -/
def ofDraft? (d : Draft) : Option Timers := do
  let [totals, active] ← d.toRecord? ["totals", "active"] | none
  return {
    totals := ← Draft.required (Draft.toMap? Draft.toWord64?) totals
    active := ← Draft.optional RunningTimer.ofDraft? active }

end Timers

namespace Task

/-- The line that a key of the stored counts stands for: its digits without leading zeros. -/
def lineOfKey? (key : String) : Option Nat := do
  let n ← Number.ofDigits? key.toList
  if Number.digits n = key.toList ∧ n < Number.twoPow 64 then some n else none

/-- The stored form of counts. -/
def countsToJson (counts : SortedMap Nat Nat) : Json :=
  .obj (counts.entries.map fun e => (String.ofList (Number.digits e.1), .nat e.2))

/-- The counts that a value stores. -/
def countsOfDraft? : Draft → Option (SortedMap Nat Nat)
  | .obj fields =>
    (fields.mapM fun (e : String × Draft) => do
      return (← lineOfKey? e.1, ← e.2.toWord32?)).map SortedMap.ofList
  | _ => none

/-- The stored form of a task. -/
def toJson (t : Task) : Json :=
  .obj [("task_id", .str t.id), ("phase", .str t.phase.name),
    ("current_state", .option .str t.current), ("transition_counts", countsToJson t.counts),
    ("contexts", .map StateContext.toJson t.contexts), ("timers", t.timers.toJson),
    ("exit", .option Exit.toJson t.exit), ("versions", .map .nat t.versions),
    ("recording", t.recording.toJson), ("table_hash", .str t.tableHash),
    ("created_at", t.createdAt.toJson)]

/-- The task that a value stores. -/
def ofDraft? (d : Draft) : Option Task := do
  let [id, phase, current, counts, contexts, timers, exit, versions, recording, hash, created] ←
    d.toRecord? ["task_id", "phase", "current_state", "transition_counts", "contexts", "timers",
      "exit", "versions", "recording", "table_hash", "created_at"] | none
  return {
    id := ← Draft.required Draft.toString? id
    phase := ← Draft.required (fun d => d.toName?.bind Phase.ofName?) phase
    current := ← Draft.optional Draft.toString? current
    counts := ← Draft.required countsOfDraft? counts
    contexts := ← Draft.required (Draft.toMap? StateContext.ofDraft?) contexts
    timers := ← Draft.required Timers.ofDraft? timers
    exit := ← Draft.optional Exit.ofDraft? exit
    versions := ← Draft.required (Draft.toMap? Draft.toWord32?) versions
    recording := ← Draft.required Recording.ofDraft? recording
    tableHash := ← Draft.required Draft.toString? hash
    createdAt := ← Draft.required Draft.toInstant? created }

/-- The stored text of a task. -/
def toText (t : Task) : String :=
  t.toJson.toText

/-- The task that a text stores. -/
def ofText? (s : String) : Option Task :=
  (Draft.ofText? s).bind ofDraft?

end Task

end TaskTable
