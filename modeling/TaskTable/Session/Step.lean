import TaskTable.Session.Route

/-!
# Steps

One step takes one transition: the current state's selector is asked for a value, the value is
resolved to a transition, and the target is entered. A value that cannot be resolved is replaced by
`!`, so at most two values are looked at.
-/

namespace TaskTable
namespace Session

variable {σ τ : Type}

/-- The points of a step at which it looks whether the task is held back. -/
inductive Look
  | atStart
  | firstRound
  | secondRound
  deriving DecidableEq, Repr

/-- What a step sees of the pause flag at each look, given how the session has it. The flag belongs
to an operator who may change it while the step goes on. -/
abbrev Watch := Look → Bool → Bool

/-- Nobody changes the flag while a step goes on. -/
def Watch.steady : Watch := fun _ paused => paused

/-- What a step comes to: a result, or a fault that it does not get over. -/
abbrev Outcome (σ τ : Type) := Session σ τ × Except Fault StepResult

/-- A step that got to its end. -/
def Stepped.outcome (r : Stepped σ τ) : Outcome σ τ :=
  (r.1, .ok r.2)

/-- The transition for a value in a block, within the limits. The error route always leads
somewhere. -/
def resolve (s : Session σ τ) (b : Block) (state value : String) : Except Trouble Transition :=
  if value = Names.error then .ok (s.errorRoute b)
  else
    match b.next? value with
    | none => .error (.unknownValue state value)
    | some t => if s.isExhausted t then .error (.limitReached state value t.max) else .ok t

/-- The result of a step that is held back. -/
def held (s : Session σ τ) : Outcome σ τ :=
  (s, .ok (.running s.pauseWait))

/-- Takes the error route after a selector failed or asked for it. -/
def takeError (now : Instant) (s : Session σ τ) (b : Block) (state : String)
    (requested : Option String) (cause : Trouble) : Outcome σ τ :=
  (s.follow now (goToError now)
    { origin := state
      method := b.method
      value := Names.error
      requested
      kind := .selector
      transition := s.errorRoute b
      cause := some cause }).outcome

/-- Takes the transition for a value that a selector gave. -/
def takeValue (watch : Watch) (now : Instant) (s : Session σ τ) (b : Block)
    (state value : String) : Outcome σ τ :=
  if value = Names.error then s.takeError now b state none (.errorValue b.method state)
  else
    match s.resolve b state value with
    | .ok t =>
      (s.follow now (goToError now)
        { origin := state
          method := b.method
          value
          kind := .selector
          transition := t
          cause := none }).outcome
    | .error trouble =>
      let s := s.note trouble
      if watch .secondRound s.paused then s.held
      else s.takeError now b state (some value) trouble

/-- Asks for a value in a state with a block, and takes its transition. -/
def selectFrom [Supply τ] (watch : Watch) (now : Instant) (s : Session σ τ) (b : Block)
    (state : String) : Outcome σ τ :=
  if watch .firstRound s.paused then s.held
  else
    match s.askValue state b.method with
    | (s, .error e) => (s, .error (.supply e))
    | (s, .ok (.error trouble)) => (s.note trouble).takeError now b state none trouble
    | (s, .ok (.ok value)) => s.takeValue watch now b state value

/-- Goes on in a state without a block: `finish` and `terminate` end the task, in `failure` it
cannot go on, and any other state leads to `failure`. -/
def goOnWithoutBlock (now : Instant) (s : Session σ τ) (state : String) (e : TableError) :
    Outcome σ τ :=
  if state = Names.finish then
    let s := s.complete now .finished ⟨.succeeded, none⟩
    (s, .ok (s.completed 0))
  else if state = Names.terminate then
    let s := s.complete now .terminated ⟨.terminated, none⟩
    (s, .ok (s.completed 0))
  else if state = Names.failure then
    let cause := (s.task.exit.bind (·.message)).getD (Trouble.dangling e).message
    let s := s.updateTask fun t => { t with exit := some ⟨.systemError, some cause⟩ }
    (s.complete now .finished ⟨.systemError, none⟩, .error (.unrecoverable Names.failure cause))
  else ((s.note (.dangling e)).goToFailure now state (.dangling e)).outcome

/-- Goes on in the given state. -/
def goOn [Supply τ] (watch : Watch) (now : Instant) (s : Session σ τ) (state : String) :
    Outcome σ τ :=
  match s.table.block state with
  | .ok b => s.selectFrom watch now b state
  | .error e => s.goOnWithoutBlock now state e

/-- Starts the task: enters the first state and takes its first transition. -/
def start [Supply τ] (watch : Watch) (now : Instant) (s : Session σ τ) : Outcome σ τ :=
  match s.table.startState with
  | .error e => (s, .error (.table e))
  | .ok state =>
    let s := s.updateTask fun t =>
      { t with phase := .running, recording := t.recording.markStarted now }
    let s := s.arrive now state true
    match s.enterLive state none with
    | (s, none) => s.goOn watch now state
    | (s, some trouble) =>
      let s := s.note trouble
      if state = Names.failure then (s, .ok (.running 0))
      else (s.goToError now state trouble).outcome

/-- Terminates the task. The `terminate` handler runs, and what goes wrong with it is passed over.
-/
def terminate (now : Instant) (s : Session σ τ) (reason : String) : Outcome σ τ :=
  let exit : Exit := ⟨.terminated, some reason⟩
  let setExit (s : Session σ τ) := s.updateTask fun t => { t with exit := some exit }
  let s :=
    if s.task.phase = .notStarted then
      (s.enterLive Names.terminate (some reason)).1.complete now .terminated exit
    else if s.table.hasBlock Names.terminate then
      let origin := s.task.current.getD ""
      let s := s.record <|
        .transition origin (s.methodOf origin) Names.terminateRequested none .signal now
      let s := s.arrive now Names.terminate true
      (setExit (s.enterLive Names.terminate (some reason)).1).complete now .terminated exit
    else (setExit s).complete now .terminated exit
  (s, .ok (s.completed 0))

/-- The oldest signal for the task, if the session looks for signals. -/
def signal? (s : Session σ τ) : Option Signal :=
  if s.listening then s.queue.oldest? s.task.id else none

/-- One step, with what it sees of the pause flag. A task that has ended stays as it is; a signal
comes before everything else; then the flag. -/
def stepSeeing [Supply τ] (watch : Watch) (now : Instant) (s : Session σ τ) : Outcome σ τ :=
  if s.isComplete then (s, .ok (s.completed 0))
  else
    match s.signal? with
    | some signal =>
      { s with queue := s.queue.consume s.task.id signal.id }.terminate now signal.text
    | none =>
      if watch .atStart s.paused then s.held
      else
        match s.task.phase, s.task.current with
        | .notStarted, _ | _, none => s.start watch now
        | _, some state => s.goOn watch now state

/-- One step. -/
def step [Supply τ] (now : Instant) (s : Session σ τ) : Outcome σ τ :=
  s.stepSeeing .steady now

end Session
end TaskTable
