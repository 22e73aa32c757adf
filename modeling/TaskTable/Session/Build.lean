import TaskTable.Check.Report
import TaskTable.Session.Basic

/-!
# Building sessions

A session for a new task, or for a stored task that is to be carried on. A stored task is first
brought up to the versions that the handler is for.
-/

namespace TaskTable

/-- What a session is built from. -/
structure Setup (σ τ : Type) where
  table : Table
  handler : Handler σ
  memory : σ
  /-- The id of a new task. -/
  taskId : String
  /-- The task to carry on; a new one without it. -/
  stored : Option Task := none
  supply : Option τ := none
  queue : SignalQueue := {}
  listening : Bool := true
  paused : Bool := false
  pauseWait : Nat := 60

namespace Setup

variable {σ τ : Type}

/-- The session for a task. -/
def session (u : Setup σ τ) (memory : σ) (task : Task) : Session σ τ where
  table := u.table
  handler := u.handler
  memory := memory
  task := task
  supply := u.supply
  queue := u.queue
  listening := u.listening
  paused := u.paused
  pauseWait := u.pauseWait

/-- Builds a session. The table must have a block to start in. Where it fails, the handler's memory
is all that is left. -/
def build (u : Setup σ τ) (now : Instant) : σ × Except Fault (Session σ τ) :=
  match u.table.startState with
  | .error e => (u.memory, .error (.table e))
  | .ok _ =>
    match u.stored with
    | none =>
      let task := Task.create u.taskId u.table.sourceHash now
      let task := { task with versions := u.handler.versions }
      (u.memory, .ok (u.session u.memory task))
    | some task =>
      match Migration.migrate u.handler u.table u.handler.versions.entries u.memory task with
      | (m, .error e) => (m, .error (.migration e))
      | (m, .ok task) => (m, .ok (u.session m { task with tableHash := u.table.sourceHash }))

end Setup

/-- The session's table checked against its handler. -/
def Session.check {σ τ : Type} (s : Session σ τ) : Check.Report :=
  Check.run s.table (some s.handler.catalog)

end TaskTable
