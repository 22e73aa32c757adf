/-!
# Status and results

How a task stands, how it ended, and what one step reports to the scheduler.
-/

namespace TaskTable

/-- How a task stands. -/
inductive Status
  | pending
  | running
  | succeeded
  | failed
  | terminated
  /-- The task could not be carried on. -/
  | systemError
  deriving DecidableEq, Repr

namespace Status

instance : Inhabited Status := ⟨pending⟩

/-- Every status. -/
def all : List Status :=
  [pending, running, succeeded, failed, terminated, systemError]

/-- The name of a status. -/
def name : Status → String
  | pending => "pending"
  | running => "running"
  | succeeded => "succeeded"
  | failed => "failed"
  | terminated => "terminated"
  | systemError => "system_error"

/-- The status with a name. -/
def ofName? (s : String) : Option Status :=
  all.find? fun st => st.name == s

/-- Whether a task with this status has ended. -/
def isTerminal : Status → Bool
  | pending | running => false
  | succeeded | failed | terminated | systemError => true

end Status

/-- How a task ended, or is going to. -/
structure Exit where
  status : Status
  message : Option String
  deriving DecidableEq, Repr

/-- What a step reports. -/
structure StepResult where
  /-- Seconds until the next step. -/
  wait : Nat
  /-- Whether further steps do nothing. -/
  complete : Bool
  status : Status
  message : Option String
  deriving DecidableEq, Repr

namespace StepResult

/-- The task goes on after some seconds. -/
def running (wait : Nat) : StepResult :=
  ⟨wait, false, .running, none⟩

/-- The task has ended. -/
def completed (exit : Exit) (wait : Nat) : StepResult :=
  ⟨wait, true, exit.status, exit.message⟩

end StepResult

end TaskTable
