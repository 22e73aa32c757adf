import TaskTable.Proofs.Session.Course

/-!
# Itineraries

What a step asks for and the moves that it makes, in order. The itinerary is a function of the
session that goes the way of the step and keeps what the session forgets: the transitions that were
taken with their causes, and a value that came to nothing. `Trail` and `Turn` list the ways that a
step can go, each with its itinerary and its outcome, so that what is said about moves is proved by
these cases (`stepSeeing_turn`).
-/

namespace TaskTable

/-- A value that a step asked for. -/
structure Consultation where
  state : String
  method : String
  /-- The value that was given; `!` if the selector failed or there is none. -/
  value : String
  /-- Whether the value came to nothing, because the task was held back before it took another one
  in its place. -/
  discarded : Bool
  deriving DecidableEq, Repr

namespace Session

variable {σ τ : Type}

/-- What a step asked for, if it did, and the moves that it made. -/
structure Itinerary where
  consulted : Option Consultation := none
  moves : List Move := []

/-! ## The moves that come of a move -/

/-- A move, and those that come of a problem in its target. In `failure` none do. -/
def trail (now : Instant) (onward : Session σ τ → String → Trouble → List Move) (s : Session σ τ)
    (m : Move) : List Move :=
  m ::
    match s.enterTarget now m with
    | (_, none) => []
    | (s, some trouble) =>
      if m.transition.target = Names.failure then []
      else onward (s.note trouble) m.transition.target trouble

/-- The moves on the way straight to `failure`. -/
def failureTrail (now : Instant) (s : Session σ τ) (state : String) (cause : Trouble) :
    List Move :=
  s.trail now (fun _ _ _ => []) (s.errorMove state .toFailure cause)

/-- The moves along the error route of a state whose handler failed. -/
def errorTrail (now : Instant) (s : Session σ τ) (state : String) (cause : Trouble) :
    List Move :=
  let route := (s.table.block? state).elim Transition.toFailure s.errorRoute
  s.trail now (failureTrail now) (s.errorMove state route cause)

/-- How following a move goes: the moves that come of it, the session it leads to, and the
result. -/
inductive Trail (now : Instant) : Session σ τ → Move → List Move → Stepped σ τ → Prop
  | arrived {s s' : Session σ τ} {m : Move} (entered : s.enterTarget now m = (s', none))
      (onward : m.transition.target ≠ Names.finish) :
      Trail now s m [m] (s', .running m.transition.wait)
  | finished {s s' : Session σ τ} {m : Move} (entered : s.enterTarget now m = (s', none))
      (target : m.transition.target = Names.finish) :
      Trail now s m [m] (s'.complete now .finished ⟨.succeeded, none⟩,
        (s'.complete now .finished ⟨.succeeded, none⟩).completed m.transition.wait)
  /-- A problem in `failure` is passed over. -/
  | passed {s s' : Session σ τ} {m : Move} {trouble : Trouble}
      (entered : s.enterTarget now m = (s', some trouble))
      (target : m.transition.target = Names.failure) :
      Trail now s m [m] (s'.note trouble, .running m.transition.wait)
  /-- Any other problem leads on along an error route. -/
  | erred {s s' : Session σ τ} {m : Move} {trouble : Trouble} {route : Transition}
      {ms : List Move} {r : Stepped σ τ} (entered : s.enterTarget now m = (s', some trouble))
      (target : m.transition.target ≠ Names.failure)
      (rest : Trail now (s'.note trouble)
        ((s'.note trouble).errorMove m.transition.target route trouble) ms r) :
      Trail now s m (m :: ms) r

theorem follow_trail {now : Instant} {recover : Session σ τ → String → Trouble → Stepped σ τ}
    {onward : Session σ τ → String → Trouble → List Move} {s : Session σ τ} {m : Move}
    (hrecover : ∀ (s' : Session σ τ) trouble, m.transition.target ≠ Names.failure →
      ∃ route, Trail now s' (s'.errorMove m.transition.target route trouble)
        (onward s' m.transition.target trouble) (recover s' m.transition.target trouble)) :
    Trail now s m (s.trail now onward m) (s.follow now recover m) := by
  rw [follow_eq, trail]
  generalize hentered : s.enterTarget now m = entered
  obtain ⟨s', _ | trouble⟩ := entered
  · simp only [settle]
    split
    · next hfinish => exact .finished hentered hfinish
    · next honward => exact .arrived hentered honward
  · simp only [settle]
    split
    · next hfailure => exact .passed hentered hfailure
    · next hne =>
      obtain ⟨route, hrest⟩ := hrecover (s'.note trouble) trouble hne
      exact .erred hentered hne hrest

theorem goToFailure_trail (now : Instant) (s : Session σ τ) (state : String) (cause : Trouble) :
    Trail now s (s.errorMove state .toFailure cause) (s.failureTrail now state cause)
      (s.goToFailure now state cause) :=
  follow_trail fun _ _ hne => absurd rfl hne

theorem goToError_trail (now : Instant) (s : Session σ τ) (state : String) (cause : Trouble) :
    Trail now s
      (s.errorMove state ((s.table.block? state).elim .toFailure s.errorRoute) cause)
      (s.errorTrail now state cause) (s.goToError now state cause) :=
  follow_trail fun s' trouble _ => ⟨.toFailure, goToFailure_trail now s' _ trouble⟩

/-! ## What becomes of an answer -/

/-- The value that an answer comes to. -/
def answered : Except Trouble String → String
  | .ok value => value
  | .error _ => Names.error

/-- The move along the error route of a block, for a problem with the value of its selector. -/
def selectorErrorMove (s : Session σ τ) (b : Block) (state : String) (requested : Option String)
    (cause : Trouble) : Move where
  origin := state
  method := b.method
  value := Names.error
  requested
  kind := .selector
  transition := s.errorRoute b
  cause := some cause

/-- What a session makes of an answer: the move it chooses, unless it is held back before it takes
the error route. -/
def choose (watch : Watch) (s : Session σ τ) (b : Block) (state : String) :
    Except Trouble String → Session σ τ × Option Move
  | .error trouble => (s.note trouble, some (s.selectorErrorMove b state none trouble))
  | .ok value =>
    if value = Names.error then
      (s, some (s.selectorErrorMove b state none (.errorValue b.method state)))
    else
      match s.resolve b state value with
      | .ok t =>
        (s, some
          { origin := state
            method := b.method
            value
            kind := .selector
            transition := t
            cause := none })
      | .error trouble =>
        (s.note trouble,
          if watch .secondRound s.paused then none
          else some (s.selectorErrorMove b state (some value) trouble))

/-- A session changes by the problem alone that it notes with an answer. -/
theorem choose_notes (watch : Watch) (s : Session σ τ) (b : Block) (state : String)
    (answer : Except Trouble String) :
    (s.choose watch b state answer).1 = s ∨
      ∃ trouble, (s.choose watch b state answer).1 = s.note trouble := by
  unfold choose
  split
  · exact .inr ⟨_, rfl⟩
  · split
    · exact .inl rfl
    · split
      · exact .inl rfl
      · exact .inr ⟨_, rfl⟩

/-- A move that is chosen records the answer as the value that was asked for. -/
theorem choose_records {watch : Watch} {s s' : Session σ τ} {b : Block} {state : String}
    {answer : Except Trouble String} {m : Move}
    (h : s.choose watch b state answer = (s', some m)) :
    m.kind = .selector ∧ m.origin = state ∧ m.requested.getD m.value = answered answer := by
  unfold choose at h
  split at h
  · cases h
    exact ⟨rfl, rfl, rfl⟩
  · split at h
    · next hvalue =>
      cases h
      exact ⟨rfl, rfl, hvalue.symm⟩
    · split at h
      · cases h
        exact ⟨rfl, rfl, rfl⟩
      · split at h
        · cases h
        · cases h
          exact ⟨rfl, rfl, rfl⟩

section Asking

variable [Supply τ]

/-- Asking for a value, and following the move that the answer leads to. -/
theorem selectFrom_eq (watch : Watch) (now : Instant) (s : Session σ τ) (b : Block)
    (state : String) :
    s.selectFrom watch now b state =
      if watch .firstRound s.paused then s.held
      else
        match s.askValue state b.method with
        | (s, .error e) => (s, .error (.supply e))
        | (s, .ok answer) =>
          match s.choose watch b state answer with
          | (s, none) => s.held
          | (s, some m) => (s.follow now (goToError now) m).outcome := by
  unfold selectFrom
  split
  · rfl
  · generalize s.askValue state b.method = asked
    match asked with
    | (s', .error e) => rfl
    | (s', .ok (.error trouble)) => rfl
    | (s', .ok (.ok value)) =>
      dsimp only [takeValue, choose]
      split
      · rfl
      · generalize s'.resolve b state value = resolved
        obtain trouble | t := resolved
        · dsimp only
          -- noting the problem leaves the pause flag as it is
          rw [show (s'.note trouble).paused = s'.paused from rfl]
          split <;> rfl
        · rfl

/-! ## The itinerary of a step -/

/-- The itinerary from a state with a block. -/
def selectItinerary (watch : Watch) (now : Instant) (s : Session σ τ) (b : Block)
    (state : String) : Itinerary :=
  if watch .firstRound s.paused then {}
  else
    match s.askValue state b.method with
    | (_, .error _) => {}
    | (s, .ok answer) =>
      match s.choose watch b state answer with
      | (_, none) => { consulted := some ⟨state, b.method, answered answer, true⟩ }
      | (s, some m) =>
        { consulted := some ⟨state, b.method, answered answer, false⟩
          moves := s.trail now (errorTrail now) m }

/-- The itinerary from a state. -/
def goOnItinerary (watch : Watch) (now : Instant) (s : Session σ τ) (state : String) :
    Itinerary :=
  match s.table.block state with
  | .ok b => s.selectItinerary watch now b state
  | .error e =>
    if Names.isBuiltin state then {}
    else { moves := (s.note (.dangling e)).failureTrail now state (.dangling e) }

/-- The itinerary of a task that starts. -/
def startItinerary (watch : Watch) (now : Instant) (s : Session σ τ) : Itinerary :=
  match s.table.startState with
  | .error _ => {}
  | .ok state =>
    match (s.enterStart now state).enterLive state none with
    | (s, none) => s.goOnItinerary watch now state
    | (s, some trouble) =>
      if state = Names.failure then {}
      else { moves := (s.note trouble).errorTrail now state trouble }

/-- The itinerary of a step. A signal leads the task to `terminate` without a move. -/
def itinerary (watch : Watch) (now : Instant) (s : Session σ τ) : Itinerary :=
  if s.isComplete then {}
  else
    match s.signal? with
    | some _ => {}
    | none =>
      if watch .atStart s.paused then {}
      else
        match s.task.phase, s.task.current with
        | .notStarted, _ | _, none => s.startItinerary watch now
        | _, some state => s.goOnItinerary watch now state

/-- How a step goes on in a state. -/
inductive GoesOn (watch : Watch) (now : Instant) (s : Session σ τ) (state : String) :
    Itinerary → Outcome σ τ → Prop
  | waits : GoesOn watch now s state {} s.held
  /-- The supply gives no value. -/
  | gaveOut {b : Block} {s' : Session σ τ} {e : SupplyError}
      (asked : s.askValue state b.method = (s', .error e)) :
      GoesOn watch now s state {} (s', .error (.supply e))
  | heldBack {b : Block} {s' s'' : Session σ τ} {answer : Except Trouble String}
      (asked : s.askValue state b.method = (s', .ok answer))
      (chosen : s'.choose watch b state answer = (s'', none)) :
      GoesOn watch now s state
        { consulted := some ⟨state, b.method, answered answer, true⟩ } s''.held
  | moved {b : Block} {s' s'' : Session σ τ} {answer : Except Trouble String} {m : Move}
      {ms : List Move} {r : Stepped σ τ} (asked : s.askValue state b.method = (s', .ok answer))
      (chosen : s'.choose watch b state answer = (s'', some m)) (trail : Trail now s'' m ms r) :
      GoesOn watch now s state
        { consulted := some ⟨state, b.method, answered answer, false⟩, moves := ms } r.outcome
  /-- The task is in a built-in state without a block. -/
  | halted (missing : s.table.block? state = none) (builtin : Names.isBuiltin state = true) :
      GoesOn watch now s state {} (s.goOnWithoutBlock now state (.missingBlock state))
  /-- The task is in another state without a block. -/
  | lost {e : TableError} {ms : List Move} {r : Stepped σ τ}
      (trail : Trail now (s.note (.dangling e))
        ((s.note (.dangling e)).errorMove state .toFailure (.dangling e)) ms r) :
      GoesOn watch now s state { moves := ms } r.outcome

/-- How a step goes. -/
inductive Turn (watch : Watch) (now : Instant) (s : Session σ τ) : Itinerary → Outcome σ τ → Prop
  | ended (complete : s.isComplete = true) : Turn watch now s {} (s, .ok (s.completed 0))
  | signalled (x : Signal) (ongoing : s.isComplete = false) (pending : s.signal? = some x) :
      Turn watch now s {}
        ({ s with queue := s.queue.consume s.task.id x.id }.terminate now x.text)
  | held : Turn watch now s {} s.held
  | unstartable (e : TableError) (start : s.table.startState = .error e) :
      Turn watch now s {} (s, .error (.table e))
  /-- The handler of the first state fails, and the first state is `failure`. -/
  | startPassed {s' : Session σ τ} {trouble : Trouble} (ongoing : s.isComplete = false)
      (start : s.table.startState = .ok Names.failure)
      (entered : (s.enterStart now Names.failure).enterLive Names.failure none =
        (s', some trouble)) :
      Turn watch now s {} (s'.note trouble, .ok (.running 0))
  | startErred {state : String} {s' : Session σ τ} {trouble : Trouble} {route : Transition}
      {ms : List Move} {r : Stepped σ τ} (ongoing : s.isComplete = false)
      (start : s.table.startState = .ok state)
      (entered : (s.enterStart now state).enterLive state none = (s', some trouble))
      (trail : Trail now (s'.note trouble) ((s'.note trouble).errorMove state route trouble) ms r) :
      Turn watch now s { moves := ms } r.outcome
  | started {state : String} {s' : Session σ τ} {i : Itinerary} {o : Outcome σ τ}
      (ongoing : s.isComplete = false) (start : s.table.startState = .ok state)
      (entered : (s.enterStart now state).enterLive state none = (s', none))
      (goesOn : GoesOn watch now s' state i o) : Turn watch now s i o
  | goesOn {state : String} {i : Itinerary} {o : Outcome σ τ} (running : s.task.phase = .running)
      (current : s.task.current = some state) (goesOn : GoesOn watch now s state i o) :
      Turn watch now s i o

theorem selectFrom_goesOn (watch : Watch) (now : Instant) (s : Session σ τ) (b : Block)
    (state : String) :
    GoesOn watch now s state (s.selectItinerary watch now b state)
      (s.selectFrom watch now b state) := by
  rw [selectFrom_eq, selectItinerary]
  split
  · exact .waits
  · generalize hasked : s.askValue state b.method = asked
    obtain ⟨s', e | answer⟩ := asked
    · exact .gaveOut hasked
    · dsimp only
      generalize hchosen : s'.choose watch b state answer = chosen
      obtain ⟨s'', _ | m⟩ := chosen
      · exact .heldBack hasked hchosen
      · exact .moved hasked hchosen (follow_trail fun _ _ _ => ⟨_, goToError_trail now _ _ _⟩)

theorem goOn_goesOn (watch : Watch) (now : Instant) (s : Session σ τ) (state : String) :
    GoesOn watch now s state (s.goOnItinerary watch now state) (s.goOn watch now state) := by
  unfold goOn goOnItinerary Table.block
  cases hb : s.table.block? state with
  | some b => exact selectFrom_goesOn watch now s b state
  | none =>
    dsimp only
    split
    · next hbuiltin => exact .halted hb hbuiltin
    · next hbuiltin =>
      have hne : state ≠ Names.finish ∧ state ≠ Names.terminate ∧ state ≠ Names.failure := by
        refine ⟨?_, ?_, ?_⟩ <;> rintro rfl <;> exact hbuiltin (by decide)
      unfold goOnWithoutBlock
      rw [if_neg hne.1, if_neg hne.2.1, if_neg hne.2.2]
      exact .lost (goToFailure_trail now _ _ _)

theorem start_turn (watch : Watch) (now : Instant) (s : Session σ τ)
    (hongoing : s.isComplete = false) :
    Turn watch now s (s.startItinerary watch now) (s.start watch now) := by
  unfold startItinerary
  cases hstart : s.table.startState with
  | error e =>
    unfold start
    rw [hstart]
    exact .unstartable e hstart
  | ok state =>
    rw [start_eq watch now hstart]
    dsimp only
    generalize hentered : (s.enterStart now state).enterLive state none = entered
    obtain ⟨s', _ | trouble⟩ := entered
    · exact .started hongoing hstart hentered (goOn_goesOn watch now s' state)
    · dsimp only [settleStart]
      by_cases hfailure : state = Names.failure
      · subst hfailure
        rw [if_pos rfl, if_pos rfl]
        exact .startPassed hongoing hstart hentered
      · rw [if_neg hfailure, if_neg hfailure]
        exact .startErred hongoing hstart hentered (goToError_trail now _ _ _)

/-- A step goes the way of its itinerary. -/
theorem stepSeeing_turn (watch : Watch) (now : Instant) (s : Session σ τ) :
    Turn watch now s (s.itinerary watch now) (s.stepSeeing watch now) := by
  unfold stepSeeing itinerary
  cases hcomplete : s.isComplete with
  | true => exact .ended hcomplete
  | false =>
    simp only [Bool.false_eq_true, if_false]
    cases hsignal : s.signal? with
    | some x => exact .signalled x hcomplete hsignal
    | none =>
      dsimp only
      split
      · exact .held
      · have hstart := s.start_turn watch now hcomplete
        cases hcurrent : s.task.current with
        | none => cases s.task.phase <;> exact hstart
        | some state =>
          have hgoOn := goOn_goesOn watch now s state
          cases hphase : s.task.phase with
          | notStarted => exact hstart
          | running => exact .goesOn hphase hcurrent hgoOn
          | finished | terminated =>
            rw [isComplete, hphase] at hcomplete
            cases hcomplete

/-- The moves of a step come of one another, and decide what it comes to. -/
theorem Turn.exists_trail {watch : Watch} {now : Instant} {s : Session σ τ} {i : Itinerary}
    {o : Outcome σ τ} (hturn : Turn watch now s i o) :
    i.moves = [] ∨ ∃ s' m r, Trail now s' m i.moves r ∧ o = r.outcome := by
  have hgoes : ∀ {s state}, GoesOn watch now s state i o →
      i.moves = [] ∨ ∃ s' m r, Trail now s' m i.moves r ∧ o = r.outcome := by
    intro s state hgoes
    cases hgoes with
    | waits | gaveOut | heldBack | halted => exact .inl rfl
    | moved _ _ trail | lost trail => exact .inr ⟨_, _, _, trail, rfl⟩
  cases hturn with
  | ended | signalled | held | unstartable | startPassed => exact .inl rfl
  | startErred _ _ _ trail => exact .inr ⟨_, _, _, trail, rfl⟩
  | started _ _ _ goesOn | goesOn _ _ goesOn => exact hgoes goesOn

/-! ## Along a course -/

/-- The itinerary of an action, if it is a step. -/
def ways (s : Session σ τ) : Action τ → List Itinerary
  | .step watch now => [s.itinerary watch now]
  | _ => []

/-- The itineraries of the steps of a course, in order. -/
def itineraries (s : Session σ τ) : List (Action τ) → List Itinerary
  | [] => []
  | a :: rest => s.ways a ++ (s.act a).itineraries rest

/-- The moves that a course makes, in order. -/
def movesAlong (s : Session σ τ) (as : List (Action τ)) : List Move :=
  (s.itineraries as).flatMap (·.moves)

/-- The values that are asked for along a course, in order. -/
def consultedAlong (s : Session σ τ) (as : List (Action τ)) : List Consultation :=
  (s.itineraries as).flatMap (·.consulted.toList)

theorem movesAlong_cons (s : Session σ τ) (a : Action τ) (rest : List (Action τ)) :
    s.movesAlong (a :: rest) = (s.ways a).flatMap (·.moves) ++ (s.act a).movesAlong rest :=
  List.flatMap_append

theorem movesAlong_append (s : Session σ τ) (as bs : List (Action τ)) :
    s.movesAlong (as ++ bs) = s.movesAlong as ++ (s.course as).movesAlong bs := by
  induction as generalizing s with
  | nil => rfl
  | cons a rest ih =>
    rw [List.cons_append, movesAlong_cons, movesAlong_cons, ih, List.append_assoc]
    rfl

theorem consultedAlong_cons (s : Session σ τ) (a : Action τ) (rest : List (Action τ)) :
    s.consultedAlong (a :: rest) =
      (s.ways a).flatMap (·.consulted.toList) ++ (s.act a).consultedAlong rest :=
  List.flatMap_append

end Asking

end Session

end TaskTable
