import TaskTable.Table.Error
import TaskTable.Table.Transition

/-!
# Blocks

All edges that leave one state, in the order of their declaration, together with the method that
selects among them and the timer that runs while a task is in the state.
-/

namespace TaskTable

/-- The transitions out of one state. -/
structure Block where
  state : String
  method : String := Names.emptyTransition
  timer : String := Names.systemTimer
  transitions : List Transition := []
  /-- The line of the block's header. -/
  line : Nat
  deriving DecidableEq, Repr

namespace Block

/-- The transition declared for a value, wildcards apart. -/
def transition? (b : Block) (value : String) : Option Transition :=
  b.transitions.find? fun t => t.value == value

/-- The block with one more transition. A value can be declared once. -/
def addTransition (b : Block) (t : Transition) : Except TableError Block :=
  match b.transition? t.value with
  | some first => .error (.duplicateValue b.state t.value first.line)
  | none => .ok { b with transitions := b.transitions ++ [t] }

/-- The transition that a value takes: the one declared for it, else the route to `terminate` if a
termination is asked for, else the wildcard's. The wildcard does not stand for `!`. -/
def next? (b : Block) (value : String) : Option Transition :=
  match b.transition? value with
  | some t => some t
  | none =>
    if value = Names.terminateRequested then some .toTerminate
    else if value = Names.error then none
    else b.transition? Names.wildcard

/-- The values that the block declares, in order. -/
def values (b : Block) : List String :=
  b.transitions.map (·.value)

/-- Whether the block declares the wildcard. -/
def hasWildcard (b : Block) : Bool :=
  (b.transition? Names.wildcard).isSome

end Block

end TaskTable
