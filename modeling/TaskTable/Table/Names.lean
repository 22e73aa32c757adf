/-!
# Reserved names

The states, values, methods and timers that have a meaning of their own.
-/

namespace TaskTable
namespace Names

/-- The state in which a task ends well. -/
def finish : String := "finish"

/-- The state that errors are routed to. -/
def failure : String := "failure"

/-- The state that termination signals are routed to. -/
def terminate : String := "terminate"

/-- The value that stands for any other value except `!`. -/
def wildcard : String := "*"

/-- The value of the error route. -/
def error : String := "!"

/-- The value that leads to `terminate` from every state. -/
def terminateRequested : String := "terminateRequested"

/-- The selector method of a block that names none. -/
def emptyTransition : String := "emptyTransition"

/-- The timer of a block that names none. -/
def systemTimer : String := "system"

/-- The timer whose first start fixes `start_delay`. -/
def userTimer : String := "user"

/-- The time between the creation of a task and the first start of its `user` timer. -/
def startDelay : String := "start_delay"

/-- The states that can be entered without a handler. -/
def builtinStates : List String := [finish, failure, terminate]

/-- Whether a state can be entered without a handler. -/
def isBuiltin (state : String) : Bool :=
  builtinStates.contains state

end Names
end TaskTable
