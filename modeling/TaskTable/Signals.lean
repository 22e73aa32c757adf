import TaskTable.SortedMap

/-!
# Termination signals

Requests to terminate tasks, kept in the order in which they were sent. A signal is known by a
number that no other signal has, and stays in the queue until it is consumed.
-/

namespace TaskTable

/-- A request to terminate a task. -/
structure Signal where
  id : Nat
  reason : Option String
  deriving DecidableEq, Repr

/-- Why a task is terminated. -/
def Signal.text (s : Signal) : String :=
  s.reason.getD "termination requested"

/-- The signals that wait, by task and oldest first. -/
structure SignalQueue where
  waiting : SortedMap String (List Signal) := .empty
  /-- The number of the next signal. -/
  nextId : Nat := 0
  deriving DecidableEq

namespace SignalQueue

instance : Inhabited SignalQueue := ⟨{}⟩

/-- The signals that wait for a task, oldest first. -/
def pending (q : SignalQueue) (task : String) : List Signal :=
  q.waiting.getD task []

/-- The oldest signal that waits for a task. -/
def oldest? (q : SignalQueue) (task : String) : Option Signal :=
  (q.pending task).head?

/-- The queue with one more signal for a task. -/
def send (q : SignalQueue) (task : String) (reason : Option String) : SignalQueue :=
  { waiting := q.waiting.insert task (q.pending task ++ [⟨q.nextId, reason⟩])
    nextId := q.nextId + 1 }

/-- The queue with several more signals, sent in order. -/
def sendAll (q : SignalQueue) (signals : List (String × Option String)) : SignalQueue :=
  signals.foldl (fun q s => q.send s.1 s.2) q

/-- The queue without the signal of a task that has the given number. -/
def consume (q : SignalQueue) (task : String) (id : Nat) : SignalQueue :=
  match q.waiting.get? task with
  | none => q
  | some signals => { q with waiting := q.waiting.insert task (signals.filter fun s => s.id ≠ id) }

end SignalQueue

end TaskTable
