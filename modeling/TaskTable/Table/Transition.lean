import TaskTable.Table.Names

/-!
# Transitions

One edge of a table: the value that selects it, the state it leads to, and how it is taken. A
transition is known by the line it is declared on. The two routes that every state has without
declaring them stand on line 0 and are never counted.
-/

namespace TaskTable

/-- An edge out of a state. -/
structure Transition where
  value : String
  target : String
  /-- Seconds until the next step. -/
  wait : Nat := 0
  /-- How often the edge may be taken; 0 is without limit. -/
  max : Nat := 0
  /-- Whether the handler of the target state runs. -/
  exec : Bool := true
  /-- The line of the declaration, from 1; 0 for a route that is not declared. -/
  line : Nat
  deriving DecidableEq, Repr

namespace Transition

/-- The route that an error takes from a state that declares none. -/
def toFailure : Transition := { value := Names.error, target := Names.failure, line := 0 }

/-- The route that a termination takes. -/
def toTerminate : Transition :=
  { value := Names.terminateRequested, target := Names.terminate, line := 0 }

/-- Whether the route is one that no table declares. -/
def isImplicit (t : Transition) : Bool :=
  t.line == 0

/-- Whether a transition leads from `state` straight back into it. -/
def isSpin (t : Transition) (state : String) : Bool :=
  t.target == state && t.wait == 0

end Transition

end TaskTable
