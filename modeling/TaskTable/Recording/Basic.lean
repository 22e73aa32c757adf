import TaskTable.Time.Instant

/-!
# Recordings

What a task did, event by event. A step adds a transition and then the state it led to; the first
event is the state in which the task started.
-/

namespace TaskTable

/-- Where the value of a transition came from. -/
inductive Origin
  /-- A selector was asked, or the source that stands in for selectors. -/
  | selector
  /-- An error was routed. -/
  | fallback
  /-- A termination was asked for. -/
  | signal
  deriving DecidableEq, Repr

/-- One thing that a task did. -/
inductive Event
  /-- It entered a state; `executed` says whether the way there lets the state's handler run. -/
  | state (name : String) (executed : Bool) (time : Instant)
  /-- It left a state on a value. `requested` is the value that the selector gave, where another one
  had to be taken in its place. -/
  | transition (state method value : String) (requested : Option String) (origin : Origin)
    (time : Instant)
  deriving DecidableEq, Repr

namespace Event

/-- When it happened. -/
def time : Event → Instant
  | state _ _ t => t
  | transition _ _ _ _ _ t => t

/-- The same event at another time. -/
def withTime (t : Instant) : Event → Event
  | state name executed _ => state name executed t
  | transition s method value requested origin _ => transition s method value requested origin t

/-- The state that was entered, if that is what happened. -/
def entered? : Event → Option String
  | state name _ _ => some name
  | transition .. => none

/-- The state that was left and the value that its selector gave, if a selector was asked. -/
def selected? : Event → Option (String × String)
  | transition s _ value requested .selector _ => some (s, requested.getD value)
  | _ => none

end Event

/-- The record of what a task did. -/
structure Recording where
  events : List Event := []
  addedAt : Option Instant := none
  startedAt : Option Instant := none
  endedAt : Option Instant := none
  deriving DecidableEq, Repr

namespace Recording

instance : Inhabited Recording := ⟨{}⟩

/-- The recording with one more event. -/
def push (r : Recording) (e : Event) : Recording :=
  { r with events := r.events ++ [e] }

/-- The recording with its creation marked. The first mark stays. -/
def markAdded (r : Recording) (t : Instant) : Recording :=
  { r with addedAt := r.addedAt <|> some t }

/-- The recording with its start marked. The first mark stays. -/
def markStarted (r : Recording) (t : Instant) : Recording :=
  { r with startedAt := r.startedAt <|> some t }

/-- The recording with its end marked. The first mark stays. -/
def markEnded (r : Recording) (t : Instant) : Recording :=
  { r with endedAt := r.endedAt <|> some t }

/-- The states in the order in which they were entered. -/
def visited (r : Recording) : List String :=
  r.events.filterMap Event.entered?

/-- The states that a selector was asked in, each with the value that it gave. -/
def selected (r : Recording) : List (String × String) :=
  r.events.filterMap Event.selected?

end Recording

end TaskTable
