import TaskTable.Session.Basic

/-!
# Calls

How a session calls its handler: what the handler is told, what lies on its desk, and what becomes
of the desk afterwards. The handler is lent the context of the state and may leave another one.
-/

namespace TaskTable
namespace Session

variable {σ τ : Type}

/-- What a handler is told about a visit to a state. -/
def visit (s : Session σ τ) (state : String) (cause : Option String) : Visit :=
  let c := s.task.context state
  { taskId := s.task.id
    state := state
    cause := cause
    visits := c.visits
    firstEntered := c.firstEntered
    lastEntered := c.lastEntered }

/-- The desk of a handler that is called in a state. -/
def desk (s : Session σ τ) (state : String) : Desk where
  toStateContext := s.task.context state
  exit := s.task.exit
  paused := s.paused

/-- The session once a handler has left its memory and its desk. -/
def afterCall (s : Session σ τ) (state : String) (memory : σ) (d : Desk) : Session σ τ :=
  { s with
    memory
    paused := d.paused
    queue := s.queue.sendAll d.outbox
    task :=
      { s.task with
        contexts := s.task.contexts.insert state d.toStateContext
        exit := d.exit } }

/-- Runs the handler of a state. A built-in state can do without one. -/
def callState (s : Session σ τ) (state : String) (cause : Option String) :
    Session σ τ × Option Trouble :=
  if s.handler.catalog.hasState state then
    match s.handler.enter s.memory (s.visit state cause) (s.desk state) with
    | (m, d, .ok ()) => (s.afterCall state m d, none)
    | (m, d, .error message) => (s.afterCall state m d, some (.stateFailed state message))
  else if Names.isBuiltin state then (s, none)
  else (s, some (.noStateHandler state))

/-- Runs the handler of a state, unless the task is simulated. -/
def enterLive (s : Session σ τ) (state : String) (cause : Option String) :
    Session σ τ × Option Trouble :=
  if s.isSimulating then (s, none) else s.callState state cause

/-- Asks the selector of a method for a value. The built-in selector gives `''`. -/
def callSelector (s : Session σ τ) (state method : String) :
    Session σ τ × Except Trouble String :=
  if s.handler.catalog.hasSelector method then
    match s.handler.select s.memory method (s.visit state none) (s.desk state) with
    | (m, d, .ok value) => (s.afterCall state m d, .ok value)
    | (m, d, .error message) => (s.afterCall state m d, .error (.selectorFailed method message))
  else if method = Names.emptyTransition then (s, .ok "")
  else (s, .error (.noSelector method))

/-- Asks for a value: the supply where the task is simulated, else the selector. What goes wrong
with a supply is a fault of the step; what goes wrong with a selector is not. -/
def askValue [Supply τ] (s : Session σ τ) (state method : String) :
    Session σ τ × Except SupplyError (Except Trouble String) :=
  match s.supply with
  | some supply =>
    match Supply.next supply state method with
    | (supply, .ok value) => ({ s with supply := some supply }, .ok (.ok value))
    | (supply, .error e) => ({ s with supply := some supply }, .error e)
  | none =>
    match s.callSelector state method with
    | (s, answer) => (s, .ok answer)

end Session
end TaskTable
