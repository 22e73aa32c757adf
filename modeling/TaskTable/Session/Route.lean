import TaskTable.Session.Calls

/-!
# Routes

How a session takes a transition: the transition is recorded and counted, the target state is
entered, and its handler runs. A handler that fails sends the task along the error route. Errors are
followed up twice at most: the first along the state's own error route, the second straight to
`failure`, whose own errors are passed over.
-/

namespace TaskTable
namespace Session

variable {σ τ : Type}

/-! ## Arriving and ending -/

/-- The timer that runs in a state. -/
def timerOf (s : Session σ τ) (state : String) : String :=
  (s.table.block? state).elim Names.systemTimer (·.timer)

/-- The selector method of a state. -/
def methodOf (s : Session σ τ) (state : String) : String :=
  (s.table.block? state).elim Names.emptyTransition (·.method)

/-- Makes a state the current one: the visit is counted, its timer runs, and the state is
recorded. -/
def arrive (now : Instant) (s : Session σ τ) (state : String) (executed : Bool) : Session σ τ :=
  let timer := s.timerOf state
  (s.updateTask fun t =>
    { t with
      current := some state
      contexts := t.contexts.insert state ((t.context state).visit now)
      timers := t.timers.engage timer now t.createdAt }).record (.state state executed now)

/-- Ends the task. The exit that is set already stays. Timings are reported for a task that ends in
`finish`. -/
def complete (now : Instant) (s : Session σ τ) (phase : Phase) (exit : Exit) : Session σ τ :=
  let timers := s.task.timers.stop now
  { s with
    task :=
      { s.task with
        phase
        exit := some (s.task.exit.getD exit)
        timers
        recording := s.task.recording.markEnded now }
    reports :=
      if s.task.current = some Names.finish then s.reports ++ timers.totals.entries
      else s.reports }

/-- The result of a step after which the task has ended. -/
def completed (s : Session σ τ) (wait : Nat) : StepResult :=
  let status := if s.task.phase = .terminated then Status.terminated else Status.succeeded
  .completed (s.task.exit.getD ⟨status, none⟩) wait

/-! ## Taking a transition -/

/-- A transition to take, and why. -/
structure Move where
  /-- The state to leave. -/
  origin : String
  method : String
  value : String
  /-- The value that the selector gave, where `value` stands in for it. -/
  requested : Option String := none
  kind : Origin
  transition : Transition
  cause : Option Trouble

/-- A session that has made a step, and the step's result. -/
abbrev Stepped (σ τ : Type) := Session σ τ × StepResult

/-- Records a move and counts its transition. Implicit routes are not counted. -/
def depart (now : Instant) (s : Session σ τ) (m : Move) : Session σ τ :=
  let s := s.record (.transition m.origin m.method m.value m.requested m.kind now)
  if m.transition.isImplicit then s else s.updateTask fun t => t.increment m.transition.line

/-- Why the target of a move is entered. A move to `failure` always has a reason. -/
def Move.reason (m : Move) : Option Trouble :=
  m.cause <|> if m.transition.target = Names.failure then some (.routed m.value m.origin) else none

/-- Sets the exit of a task that enters `failure`, if none is set. -/
def setFailed (s : Session σ τ) (reason : Option Trouble) : Session σ τ :=
  let exit : Exit := ⟨.failed, some (reason.elim "entered failure" Trouble.message)⟩
  s.updateTask fun t => { t with exit := some (t.exit.getD exit) }

/-- Takes a transition and enters its target. When the handler of the target fails, `recover` goes
on from there, except in `failure`, where the error is passed over. -/
def follow (now : Instant) (recover : Session σ τ → String → Trouble → Stepped σ τ)
    (s : Session σ τ) (m : Move) : Stepped σ τ :=
  let target := m.transition.target
  let s := (s.depart now m).arrive now target m.transition.exec
  let s := if target = Names.failure then s.setFailed m.reason else s
  let (s, trouble) :=
    if m.transition.exec then s.enterLive target (m.reason.map Trouble.message) else (s, none)
  match trouble with
  | some trouble =>
    let s := s.note trouble
    if target = Names.failure then (s, .running m.transition.wait) else recover s target trouble
  | none =>
    if target = Names.finish then
      let s := s.complete now .finished ⟨.succeeded, none⟩
      (s, s.completed m.transition.wait)
    else (s, .running m.transition.wait)

/-! ## The error route -/

/-- Whether a transition was taken as often as it may be. -/
def isExhausted (s : Session σ τ) (t : Transition) : Bool :=
  t.max != 0 && t.max ≤ s.task.count t.line

/-- The error route of a block: the declared one while it may be taken, else the way to `failure`
that every state has. -/
def errorRoute (s : Session σ τ) (b : Block) : Transition :=
  match b.next? Names.error with
  | some t => if s.isExhausted t then .toFailure else t
  | none => .toFailure

/-- The move along an error route. -/
def errorMove (s : Session σ τ) (state : String) (t : Transition) (cause : Trouble) : Move where
  origin := state
  method := s.methodOf state
  value := Names.error
  kind := .fallback
  transition := t
  cause := some cause

/-- Goes straight to `failure`. -/
def goToFailure (now : Instant) (s : Session σ τ) (state : String) (cause : Trouble) :
    Stepped σ τ :=
  s.follow now (fun s _ _ => (s, .running 0)) (s.errorMove state .toFailure cause)

/-- Goes along the error route of a state whose handler failed. -/
def goToError (now : Instant) (s : Session σ τ) (state : String) (cause : Trouble) :
    Stepped σ τ :=
  let route := (s.table.block? state).elim Transition.toFailure s.errorRoute
  s.follow now (goToFailure now) (s.errorMove state route cause)

end Session
end TaskTable
