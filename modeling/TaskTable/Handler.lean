import TaskTable.Catalog
import TaskTable.Task.Basic

/-!
# Handlers

The code of an application, as the library calls it. A handler has a memory of its own, of any type.
It is called when a state is entered, when a selector is asked for a value, and when stored data has
to be brought up to a newer version. A call is told about the visit; what it may change lies on its
desk, and the context of the state does so as a whole.
-/

namespace TaskTable

/-- What a handler is told when it is called. -/
structure Visit where
  taskId : String
  state : String
  /-- Why the task was routed here, when an error or a termination led here. -/
  cause : Option String
  visits : Nat
  firstEntered : Option Instant
  lastEntered : Option Instant
  deriving DecidableEq, Repr

/-- What a handler may change: the context of the state, of which it may replace any part, the
number of visits and the times of entry included, and what else is lent to it. -/
structure Desk extends StateContext where
  /-- How the task is going to end. -/
  exit : Option Exit
  /-- Whether the task is paused. -/
  paused : Bool
  /-- Termination signals that the handler sends: the task and the reason of each. -/
  outbox : List (String × Option String) := []
  deriving DecidableEq

/-- What an update may ask for. -/
structure Requests where
  /-- Start the task over; nothing else counts then. -/
  restart : Bool := false
  newState : Option String := none
  /-- Forget all counts. -/
  resetAll : Bool := false
  /-- Forget the counts of these states. -/
  resetStates : List String := []
  /-- Forget the counts of these transitions: the state and the value of each. -/
  resetCounts : List (String × String) := []
  deriving DecidableEq, Repr

/-- The code of an application, with a memory `σ`. -/
structure Handler (σ : Type) where
  catalog : Catalog
  /-- The version of each component's data that the code is for. -/
  versions : SortedMap String Nat
  /-- Runs the handler of the visited state. -/
  enter : σ → Visit → Desk → σ × Desk × Except String Unit
  /-- Asks the selector of a method for a value. -/
  select : σ → (method : String) → Visit → Desk → σ × Desk × Except String String
  /-- Runs an update hook in a task that is in the given state; `none` if there is no such hook. -/
  update : σ → (hook : String) → (current : Option String) → Table →
    σ × Option (Except String Requests)

namespace Handler

/-- A handler without any code. -/
def none {σ : Type} : Handler σ where
  catalog := {}
  versions := .empty
  enter m _ d := (m, d, .ok ())
  select m method _ d := (m, d, .error ("no selector '" ++ method ++ "'"))
  update m _ _ _ := (m, .none)

end Handler

/-- A handler put together from functions by name. -/
structure Registry (σ : Type) where
  catalog : Catalog := {}
  states : SortedMap String (σ → Visit → Desk → σ × Desk × Except String Unit) := .empty
  selectors : SortedMap String (σ → Visit → Desk → σ × Desk × Except String String) := .empty
  versions : SortedMap String Nat := .empty
  updates : SortedMap String (σ → Option String → Table → σ × Except String Requests) := .empty

namespace Registry

variable {σ : Type}

/-- The registry with a handler for a state. -/
def state (r : Registry σ) (name : String)
    (f : σ → Visit → Desk → σ × Desk × Except String Unit) : Registry σ :=
  { r with catalog := r.catalog.addState name, states := r.states.insert name f }

/-- The registry with a selector and the values that it may give, each with its meaning. -/
def selector (r : Registry σ) (method : String) (values : List (String × String))
    (f : σ → Visit → Desk → σ × Desk × Except String String) : Registry σ :=
  { r with
    catalog := r.catalog.addSelector method values
    selectors := r.selectors.insert method f }

/-- The registry with the version of a component's data. -/
def version (r : Registry σ) (component : String) (n : Nat) : Registry σ :=
  { r with versions := r.versions.insert component n }

/-- The registry with an update hook. -/
def update (r : Registry σ) (hook : String)
    (f : σ → Option String → Table → σ × Except String Requests) : Registry σ :=
  { r with updates := r.updates.insert hook f }

/-- The handler that calls the registered functions. -/
def toHandler (r : Registry σ) : Handler σ where
  catalog := r.catalog
  versions := r.versions
  enter m v d :=
    match r.states.get? v.state with
    | some f => f m v d
    | none => (m, d, .error ("no state handler for '" ++ v.state ++ "'"))
  select m method v d :=
    match r.selectors.get? method with
    | some f => f m v d
    | none => (m, d, .error ("no transition selector '" ++ method ++ "'"))
  update m hook current table :=
    match r.updates.get? hook with
    | some f =>
      match f m current table with
      | (m, result) => (m, some result)
    | none => (m, none)

end Registry

end TaskTable
