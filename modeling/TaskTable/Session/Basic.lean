import TaskTable.Handler
import TaskTable.Migration
import TaskTable.Signals
import TaskTable.Supply.Basic

/-!
# Sessions

A task together with all that its steps use: the table, the handler with its memory, a supply where
the task is simulated, the signals, the pause flag and the timings reported so far.
-/

namespace TaskTable

/-- A problem that a step gets over by taking the error route. -/
inductive Trouble
  /-- The handler of a state failed with a message. -/
  | stateFailed (state message : String)
  /-- The selector of a method failed with a message. -/
  | selectorFailed (method message : String)
  /-- A state that is not built in has no handler. -/
  | noStateHandler (state : String)
  /-- A method has no selector. -/
  | noSelector (method : String)
  /-- A transition was taken as often as it may be. -/
  | limitReached (state value : String) (max : Nat)
  /-- A state has no transition for a value. -/
  | unknownValue (state value : String)
  /-- The task is in a state without a block. -/
  | dangling (cause : TableError)
  /-- A selector asked for the error route. -/
  | errorValue (method state : String)
  /-- A transition of the table leads to `failure`. -/
  | routed (value state : String)
  deriving DecidableEq, Repr

/-- The wording of a problem. -/
def Trouble.message : Trouble → String
  | stateFailed state message => "handler '" ++ state ++ "' failed: " ++ message
  | selectorFailed method message => "handler '" ++ method ++ "' failed: " ++ message
  | noStateHandler state =>
    "handler '" ++ state ++ "' failed: no state handler for '" ++ state ++ "'"
  | noSelector method =>
    "handler '" ++ method ++ "' failed: no transition selector '" ++ method ++ "'"
  | limitReached state value max =>
    "transition '" ++ value ++ "' from '" ++ state ++ "' reached its limit of " ++ toString max
  | unknownValue state value =>
    "state '" ++ state ++ "' has no transition for value '" ++ value ++ "'"
  | dangling cause => "dangling reference: " ++ cause.message
  | errorValue method state => "'" ++ method ++ "' returned '!' in state '" ++ state ++ "'"
  | routed value state => "transition '" ++ value ++ "' from '" ++ state ++ "'"

/-- A problem that a step does not get over. -/
inductive Fault
  | table (cause : TableError)
  | supply (cause : SupplyError)
  | unrecoverable (state cause : String)
  | migration (cause : Migration.Error)
  deriving DecidableEq, Repr

/-- The wording of a fault. -/
def Fault.message : Fault → String
  | table cause => cause.message
  | supply cause => "simulation failed: " ++ cause.message
  | unrecoverable state cause => "unrecoverable failure in state '" ++ state ++ "': " ++ cause
  | migration cause => cause.message

/-- A task and all that its steps use. `σ` is the memory of the handler and `τ` the supply. -/
structure Session (σ τ : Type) where
  table : Table
  handler : Handler σ
  memory : σ
  task : Task
  /-- What stands in for selectors, while the task is simulated. -/
  supply : Option τ := none
  queue : SignalQueue := {}
  /-- Whether the steps look for signals. -/
  listening : Bool := true
  /-- Whether an operator or a handler holds the task back. -/
  paused : Bool := false
  /-- Seconds that a step asks for while the task is held back. -/
  pauseWait : Nat := 60
  /-- The timings reported so far, oldest first. -/
  reports : List (String × Nat) := []
  /-- The problems met so far, oldest first. -/
  troubles : List Trouble := []

namespace Session

variable {σ τ : Type}

/-- Whether a supply stands in for the selectors. -/
def isSimulating (s : Session σ τ) : Bool :=
  s.supply.isSome

/-- Whether the task has ended. -/
def isComplete (s : Session σ τ) : Bool :=
  s.task.phase.isTerminal

/-- The session with its task changed. -/
def updateTask (s : Session σ τ) (f : Task → Task) : Session σ τ :=
  { s with task := f s.task }

/-- The session with one more problem met. -/
def note (s : Session σ τ) (t : Trouble) : Session σ τ :=
  { s with troubles := s.troubles ++ [t] }

/-- The session with one more event recorded. -/
def record (s : Session σ τ) (e : Event) : Session σ τ :=
  s.updateTask fun t => { t with recording := t.recording.push e }

/-- The session with selectors replaced by a supply, which is rewound first. -/
def simulate [Supply τ] (s : Session σ τ) (supply : τ) : Session σ τ :=
  { s with supply := some (Supply.rewind supply) }

/-- The session with the selectors back in their place. -/
def stopSimulating (s : Session σ τ) : Session σ τ :=
  { s with supply := none }

/-- The session without the count of the transition that a value takes out of a state. Also says
whether there is such a transition. -/
def clearCount (s : Session σ τ) (state value : String) :
    Except TableError (Session σ τ × Bool) :=
  match s.task.clearCount s.table state value with
  | .ok (t, cleared) => .ok ({ s with task := t }, cleared)
  | .error e => .error e

/-- The session with one more signal sent. -/
def send (s : Session σ τ) (task : String) (reason : Option String) : Session σ τ :=
  { s with queue := s.queue.send task reason }

end Session

end TaskTable
