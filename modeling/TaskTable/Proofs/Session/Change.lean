import Mathlib.Logic.Relation
import TaskTable.Proofs.Session.Trace

/-!
# Changes

A step is a chain of changes: a handler or supply is asked, a problem is noted, the first state is
entered, a move is made, the task ends. `Change` lists them, each with what must hold for it to
happen, and `stepSeeing_changes` says that a step does nothing else. An invariant of sessions is
then proved once for each kind of change.
-/

namespace TaskTable
namespace Session

variable {σ τ : Type}

/-! ## What a change rests on -/

/-- What entitles a session to a move. -/
inductive Warrants (s : Session σ τ) (m : Move) : Prop
  /-- The value of the selector takes its transition, which may be taken once more. -/
  | value (b : Block) (block : s.table.block? m.origin = some b) (method : m.method = b.method)
      (kind : m.kind = .selector) (requested : m.requested = none)
      (ordinary : m.value ≠ Names.error) (next : b.next? m.value = some m.transition)
      (open_ : s.isExhausted m.transition = false)
  /-- The selector failed, asked for the error route, or gave a value that cannot be taken. -/
  | error (b : Block) (block : s.table.block? m.origin = some b) (method : m.method = b.method)
      (kind : m.kind = .selector) (value : m.value = Names.error)
      (requested : ∀ r, m.requested = some r →
        r ≠ Names.error ∧ ∀ t, b.next? r = some t → s.isExhausted t = true)
      (route : m.transition = s.errorRoute b)
  /-- The handler of the state failed, or the state has no block. -/
  | fallback (kind : m.kind = .fallback) (method : m.method = s.methodOf m.origin)
      (value : m.value = Names.error) (requested : m.requested = none)
      (route : m.transition = .toFailure ∨
        ∃ b, s.table.block? m.origin = some b ∧ m.transition = s.errorRoute b)

/-- A move that a session may make: it leaves the current state and is warranted. -/
structure Allows (s : Session σ τ) (m : Move) : Prop where
  running : s.task.phase = .running
  current : s.task.current = some m.origin
  warrants : s.Warrants m

/-- Where the problems that a session notes come from. -/
inductive Arises (s : Session σ τ) : Trouble → Prop
  | stateFailed {state message : String} (live : s.supply = none)
      (failed : ∃ memory visit desk, (s.handler.enter memory visit desk).2.2 = .error message) :
      Arises s (.stateFailed state message)
  | noStateHandler {state : String} (live : s.supply = none)
      (current : s.task.current = some state)
      (missing : s.handler.catalog.hasState state = false)
      (needed : Names.isBuiltin state = false) : Arises s (.noStateHandler state)
  | selectorFailed {method message : String} (live : s.supply = none)
      (failed : ∃ memory visit desk,
        (s.handler.select memory method visit desk).2.2 = .error message) :
      Arises s (.selectorFailed method message)
  | noSelector {state : String} {b : Block} (live : s.supply = none)
      (current : s.task.current = some state) (block : s.table.block? state = some b)
      (missing : s.handler.catalog.hasSelector b.method = false)
      (needed : b.method ≠ Names.emptyTransition) : Arises s (.noSelector b.method)
  | limitReached {state value : String} {b : Block} {t : Transition}
      (current : s.task.current = some state) (block : s.table.block? state = some b)
      (next : b.next? value = some t) (exhausted : s.isExhausted t = true) :
      Arises s (.limitReached state value t.max)
  | unknownValue {state value : String} {b : Block}
      (current : s.task.current = some state) (block : s.table.block? state = some b)
      (ordinary : value ≠ Names.error) (unknown : b.next? value = none)
      (given : s.supply = none → s.Gives b.method value) : Arises s (.unknownValue state value)
  | dangling {state : String} (current : s.task.current = some state)
      (missing : s.table.block? state = none) : Arises s (.dangling (.missingBlock state))

/-- Enters the state in which the task starts. -/
def enterStart (now : Instant) (s : Session σ τ) (state : String) : Session σ τ :=
  (s.updateTask fun t =>
    { t with phase := .running, recording := t.recording.markStarted now }).arrive now state true

@[simp] theorem trace_enterStart (s : Session σ τ) (now : Instant) (state : String) :
    (s.enterStart now state).trace = (s.trace.stop .running).arrive now state true := by
  rw [enterStart, trace_arrive]
  rfl

/-! ## Changes -/

/-- One thing that a step does to a session. -/
inductive Change : Session σ τ → Session σ τ → Prop
  /-- A handler was called in a state and left its memory and its desk. -/
  | called (s : Session σ τ) (state : String) (memory : σ) (desk : Desk) (live : s.supply = none)
      (left : s.HandsBack state memory desk) : Change s (s.afterCall state memory desk)
  /-- The supply was asked. -/
  | supplied (s : Session σ τ) (before after : τ) (simulated : s.supply = some before) :
      Change s { s with supply := some after }
  | noted (s : Session σ τ) (t : Trouble) (arises : s.Arises t) : Change s (s.note t)
  /-- The task started. -/
  | started (s : Session σ τ) (now : Instant) (state : String) (ongoing : s.isComplete = false)
      (fresh : s.task.phase = .notStarted ∨ s.task.current = none)
      (start : s.table.startState = .ok state) : Change s (s.enterStart now state)
  | moved (s : Session σ τ) (now : Instant) (m : Move) (allowed : s.Allows m) :
      Change s (s.move now m)
  /-- The task ended in `finish`. -/
  | finished (s : Session σ τ) (now : Instant) (running : s.task.phase = .running)
      (current : s.task.current = some Names.finish) :
      Change s (s.complete now .finished ⟨.succeeded, none⟩)
  /-- The task ended, or got stuck, in a state without a block. -/
  | halted (s : Session σ τ) (now : Instant) (state : String) (e : TableError)
      (running : s.task.phase = .running) (current : s.task.current = some state)
      (missing : s.table.block? state = none) (builtin : Names.isBuiltin state = true) :
      Change s (s.goOnWithoutBlock now state e).1
  /-- A signal ended the task. -/
  | terminated (s : Session σ τ) (now : Instant) (signal : Signal)
      (ongoing : s.isComplete = false) (pending : s.signal? = some signal) :
      Change s ({ s with queue := s.queue.consume s.task.id signal.id }.terminate now
        signal.text).1

/-- Any number of changes in a row. -/
abbrev Changes : Session σ τ → Session σ τ → Prop :=
  Relation.ReflTransGen Change

theorem Change.changes {s s' : Session σ τ} (h : Change s s') : Changes s s' :=
  .single h

/-- The handler of a state leaves its memory and desk, or nothing happens. -/
theorem enterLive_changes (s : Session σ τ) (state : String) (cause : Option String) :
    Changes s (s.enterLive state cause).1 := by
  rcases s.enterLive_eq state cause with h | ⟨hlive, m, d, hleft, h⟩
  · rw [h]
  · rw [h]
    exact (Change.called s state m d hlive hleft).changes

/-! ## Following a move -/

/-- Makes a move and runs the handler of its target, if the move says so. -/
def enterTarget (now : Instant) (s : Session σ τ) (m : Move) : Session σ τ × Option Trouble :=
  if m.transition.exec then
    (s.move now m).enterLive m.transition.target (m.reason.map Trouble.message)
  else (s.move now m, none)

/-- Goes on once the target of a move is entered: a problem is followed up, except in `failure`,
and without one the task ends in `finish` and waits anywhere else. -/
def settle (now : Instant) (recover : Session σ τ → String → Trouble → Stepped σ τ) (m : Move)
    (s : Session σ τ) : Option Trouble → Stepped σ τ
  | some trouble =>
    if m.transition.target = Names.failure then (s.note trouble, .running m.transition.wait)
    else recover (s.note trouble) m.transition.target trouble
  | none =>
    if m.transition.target = Names.finish then
      let s := s.complete now .finished ⟨.succeeded, none⟩
      (s, s.completed m.transition.wait)
    else (s, .running m.transition.wait)

theorem follow_eq (now : Instant) (recover : Session σ τ → String → Trouble → Stepped σ τ)
    (s : Session σ τ) (m : Move) :
    s.follow now recover m =
      (s.enterTarget now m).1.settle now recover m (s.enterTarget now m).2 := rfl

@[simp] theorem table_enterLive (s : Session σ τ) (state : String) (cause : Option String) :
    (s.enterLive state cause).1.table = s.table := by
  rcases s.enterLive_eq state cause with h | ⟨_, m, d, -, h⟩ <;> rw [h]; rfl

@[simp] theorem handler_enterLive (s : Session σ τ) (state : String) (cause : Option String) :
    (s.enterLive state cause).1.handler = s.handler := by
  rcases s.enterLive_eq state cause with h | ⟨_, m, d, -, h⟩ <;> rw [h]; rfl

@[simp] theorem supply_enterLive (s : Session σ τ) (state : String) (cause : Option String) :
    (s.enterLive state cause).1.supply = s.supply := by
  rcases s.enterLive_eq state cause with h | ⟨_, m, d, -, h⟩ <;> rw [h]; rfl

@[simp] theorem troubles_enterLive (s : Session σ τ) (state : String) (cause : Option String) :
    (s.enterLive state cause).1.troubles = s.troubles := by
  rcases s.enterLive_eq state cause with h | ⟨_, m, d, -, h⟩ <;> rw [h]
  rfl

theorem phase_of_trace {s s' : Session σ τ} (h : s'.trace = s.trace) :
    s'.task.phase = s.task.phase :=
  congrArg Trace.phase h

theorem current_of_trace {s s' : Session σ τ} (h : s'.trace = s.trace) :
    s'.task.current = s.task.current :=
  congrArg Trace.current h

@[simp] theorem trace_enterTarget (s : Session σ τ) (now : Instant) (m : Move) :
    (s.enterTarget now m).1.trace = s.trace.move now m := by
  unfold enterTarget
  split <;> simp

theorem table_enterTarget (s : Session σ τ) (now : Instant) (m : Move) :
    (s.enterTarget now m).1.table = s.table := by
  have hmove : (s.move now m).table = s.table := by rw [move_eq_updateTask]; rfl
  unfold enterTarget
  split
  · exact (table_enterLive _ _ _).trans hmove
  · exact hmove

theorem current_enterTarget (s : Session σ τ) (now : Instant) (m : Move) :
    (s.enterTarget now m).1.task.current = some m.transition.target :=
  congrArg Trace.current (s.trace_enterTarget now m)

theorem phase_enterTarget (s : Session σ τ) (now : Instant) (m : Move) :
    (s.enterTarget now m).1.task.phase = s.task.phase :=
  congrArg Trace.phase (s.trace_enterTarget now m)

/-- A problem that entering the current state gives is one that may arise there. -/
theorem arises_of_enterLive {s : Session σ τ} {state : String} {cause : Option String}
    {trouble : Trouble} (hcurrent : s.task.current = some state)
    (h : (s.enterLive state cause).2 = some trouble) :
    (s.enterLive state cause).1.Arises trouble := by
  have henters := s.enterLive_enters state cause
  generalize s.enterLive state cause = entered at *
  cases henters with
  | passed | succeeded => cases h
  | failed memory desk message live failed =>
    cases h
    exact .stateFailed live failed
  | missing live missing needed =>
    cases h
    exact .noStateHandler live hcurrent missing needed

theorem enterTarget_changes {now : Instant} {s : Session σ τ} {m : Move} (h : s.Allows m) :
    Changes s (s.enterTarget now m).1 := by
  have hmove : Changes s (s.move now m) := (Change.moved s now m h).changes
  unfold enterTarget
  split
  · exact hmove.trans (enterLive_changes _ _ _)
  · exact hmove

theorem arises_of_enterTarget {now : Instant} {s : Session σ τ} {m : Move} {trouble : Trouble}
    (h : (s.enterTarget now m).2 = some trouble) : (s.enterTarget now m).1.Arises trouble := by
  unfold enterTarget at h ⊢
  split at h
  · next hexec =>
    rw [if_pos hexec]
    exact arises_of_enterLive (congrArg Trace.current (s.trace_move now m)) h
  · cases h

/-- A move that is followed is a chain of changes, when what follows on an error is one. -/
theorem follow_changes {now : Instant}
    {recover : Session σ τ → String → Trouble → Stepped σ τ} {s : Session σ τ} {m : Move}
    (hallowed : s.Allows m)
    (hrecover : ∀ (s' : Session σ τ) (state : String) (trouble : Trouble),
      s'.task.phase = .running → s'.task.current = some state →
        Changes s' (recover s' state trouble).1) :
    Changes s (s.follow now recover m).1 := by
  have hchanges : Changes s (s.enterTarget now m).1 := enterTarget_changes hallowed
  have hphase := (s.phase_enterTarget now m).trans hallowed.running
  have hcurrent := s.current_enterTarget now m
  have harises := fun t => @arises_of_enterTarget _ _ now s m t
  -- from here on, only these facts of the session in the target count
  rw [follow_eq]
  generalize s.enterTarget now m = entered at hchanges hphase hcurrent harises ⊢
  obtain ⟨s', _ | trouble⟩ := entered
  · simp only [settle]
    split
    · next hfinish => exact hchanges.tail (.finished s' now hphase (hfinish ▸ hcurrent))
    · exact hchanges
  · -- the problem arose in the state that was entered, and is noted there
    have hnoted := hchanges.tail (.noted s' trouble (harises trouble rfl))
    simp only [settle]
    split
    · exact hnoted
    · exact hnoted.trans (hrecover _ _ _ hphase hcurrent)

theorem goToFailure_changes (now : Instant) {s : Session σ τ} {state : String} (cause : Trouble)
    (hphase : s.task.phase = .running) (hcurrent : s.task.current = some state) :
    Changes s (s.goToFailure now state cause).1 := by
  refine follow_changes ⟨hphase, hcurrent, ?_⟩ fun s' _ _ _ _ => .refl
  exact .fallback rfl rfl rfl rfl (.inl rfl)

theorem goToError_changes (now : Instant) {s : Session σ τ} {state : String} (cause : Trouble)
    (hphase : s.task.phase = .running) (hcurrent : s.task.current = some state) :
    Changes s (s.goToError now state cause).1 := by
  refine follow_changes ⟨hphase, hcurrent, ?_⟩ fun s' _ _ hp hc => goToFailure_changes now _ hp hc
  refine .fallback rfl rfl rfl rfl ?_
  show (s.table.block? state).elim _ _ = _ ∨ _
  cases hb : s.table.block? state with
  | none => exact .inl rfl
  | some b => exact .inr ⟨b, hb, rfl⟩

/-! ## Selecting a value -/

/-- The error route of a block may be taken on any problem of its selector. -/
theorem takeError_changes (now : Instant) {s : Session σ τ} {b : Block} {state : String}
    {requested : Option String} (cause : Trouble) (hphase : s.task.phase = .running)
    (hcurrent : s.task.current = some state) (hb : s.table.block? state = some b)
    (hrequested : ∀ r, requested = some r →
      r ≠ Names.error ∧ ∀ t, b.next? r = some t → s.isExhausted t = true) :
    Changes s (s.takeError now b state requested cause).1 :=
  follow_changes ⟨hphase, hcurrent, .error b hb rfl rfl rfl hrequested rfl⟩
    fun _ _ _ hp hc => goToError_changes now _ hp hc

/-- Why a value other than `!` cannot be taken. -/
inductive Refuses (s : Session σ τ) (b : Block) (state value : String) : Trouble → Prop
  | unknown (ordinary : value ≠ Names.error) (next : b.next? value = none) :
      Refuses s b state value (.unknownValue state value)
  | exhausted (t : Transition) (ordinary : value ≠ Names.error) (next : b.next? value = some t)
      (exhausted : s.isExhausted t = true) :
      Refuses s b state value (.limitReached state value t.max)

/-- The ways in which a value is taken, with what each comes to. -/
inductive Takes (watch : Watch) (now : Instant) (s : Session σ τ) (b : Block)
    (state value : String) : Outcome σ τ → Prop
  | error (asked : value = Names.error) :
      Takes watch now s b state value (s.takeError now b state none (.errorValue b.method state))
  | taken (t : Transition) (ordinary : value ≠ Names.error) (next : b.next? value = some t)
      (open_ : s.isExhausted t = false) :
      Takes watch now s b state value
        (s.follow now (goToError now)
          { origin := state
            method := b.method
            value
            kind := .selector
            transition := t
            cause := none }).outcome
  /-- The value cannot be taken, and the task is held back before its error route is. -/
  | held (trouble : Trouble) (refused : s.Refuses b state value trouble)
      (paused : watch .secondRound s.paused = true) :
      Takes watch now s b state value (s.note trouble).held
  | refused (trouble : Trouble) (refused : s.Refuses b state value trouble) :
      Takes watch now s b state value
        ((s.note trouble).takeError now b state (some value) trouble)

theorem takeValue_takes (watch : Watch) (now : Instant) (s : Session σ τ) (b : Block)
    (state value : String) :
    Takes watch now s b state value (s.takeValue watch now b state value) := by
  have hrefused : ∀ trouble, s.Refuses b state value trouble →
      Takes watch now s b state value
        (if watch .secondRound (s.note trouble).paused then (s.note trouble).held
          else (s.note trouble).takeError now b state (some value) trouble) := by
    intro trouble hrefuses
    split
    · next hpaused => exact .held trouble hrefuses hpaused
    · exact .refused trouble hrefuses
  unfold takeValue
  split
  · next herror => exact .error herror
  · next hvalue =>
    simp only [resolve, if_neg hvalue]
    cases hnext : b.next? value with
    | none => exact hrefused _ (.unknown hvalue hnext)
    | some t =>
      dsimp only
      cases hexhausted : s.isExhausted t with
      | true => exact hrefused _ (.exhausted t hvalue hnext hexhausted)
      | false => exact .taken t hvalue hnext hexhausted

theorem Refuses.arises {s : Session σ τ} {b : Block} {state value : String} {trouble : Trouble}
    (h : s.Refuses b state value trouble) (hcurrent : s.task.current = some state)
    (hb : s.table.block? state = some b) (hgiven : s.supply = none → s.Gives b.method value) :
    s.Arises trouble := by
  cases h with
  | unknown ordinary next => exact .unknownValue hcurrent hb ordinary next hgiven
  | exhausted t ordinary next exhausted => exact .limitReached hcurrent hb next exhausted

/-- A value that is refused may stand in the recording as the one that was asked for. -/
theorem Refuses.requested {s : Session σ τ} {b : Block} {state value : String} {trouble : Trouble}
    (h : s.Refuses b state value trouble) :
    value ≠ Names.error ∧ ∀ t, b.next? value = some t → s.isExhausted t = true := by
  cases h with
  | unknown ordinary next => exact ⟨ordinary, fun t ht => by rw [next] at ht; cases ht⟩
  | exhausted t ordinary next exhausted =>
    refine ⟨ordinary, fun t' ht => ?_⟩
    rw [next] at ht
    cases ht
    exact exhausted

theorem takeValue_changes (watch : Watch) (now : Instant) {s : Session σ τ} {b : Block}
    {state value : String} (hphase : s.task.phase = .running)
    (hcurrent : s.task.current = some state) (hb : s.table.block? state = some b)
    (hgiven : s.supply = none → s.Gives b.method value) :
    Changes s (s.takeValue watch now b state value).1 := by
  have htakes := s.takeValue_takes watch now b state value
  generalize s.takeValue watch now b state value = o at *
  cases htakes with
  | error => exact takeError_changes now _ hphase hcurrent hb (fun r hr => by cases hr)
  | taken t ordinary next open_ =>
    exact follow_changes ⟨hphase, hcurrent, .value b hb rfl rfl rfl ordinary next open_⟩
      fun _ _ _ hp hc => goToError_changes now _ hp hc
  | held trouble refused =>
    exact (Change.noted s _ (refused.arises hcurrent hb hgiven)).changes
  | refused trouble refused =>
    have hnoted := (Change.noted s _ (refused.arises hcurrent hb hgiven)).changes
    refine hnoted.trans (takeError_changes now _ hphase hcurrent hb ?_)
    rintro r ⟨rfl⟩
    exact refused.requested

section Asking

variable [Supply τ]

theorem selectFrom_changes (watch : Watch) (now : Instant) {s : Session σ τ} {b : Block}
    {state : String} (hphase : s.task.phase = .running) (hcurrent : s.task.current = some state)
    (hb : s.table.block? state = some b) :
    Changes s (s.selectFrom watch now b state).1 := by
  have hasks := s.askValue_asks state b.method
  unfold selectFrom
  split
  · exact .refl
  · generalize s.askValue state b.method = asked at *
    cases hasks with
    | supplied before after value simulated =>
      have hsupplied := (Change.supplied s before after simulated).changes
      exact hsupplied.trans (takeValue_changes watch now hphase hcurrent hb fun h => by cases h)
    | gaveOut before after e simulated => exact (Change.supplied s before after simulated).changes
    | selected memory desk value live given left =>
      have hcalled := (Change.called s state memory desk live left).changes
      exact hcalled.trans (takeValue_changes watch now hphase hcurrent hb fun _ => given)
    | standIn live given => exact takeValue_changes watch now hphase hcurrent hb fun _ => given
    | failed memory desk message live failed left =>
      have hnoted := (Change.called s state memory desk live left).changes.tail
        (.noted _ _ (.selectorFailed live failed))
      exact hnoted.trans (takeError_changes now _ hphase hcurrent hb fun r hr => by cases hr)
    | missing live missing needed =>
      have hnoted := (Change.noted s _ (.noSelector live hcurrent hb missing needed)).changes
      exact hnoted.trans (takeError_changes now _ hphase hcurrent hb fun r hr => by cases hr)

/-! ## Whole steps -/

omit [Supply τ] in
/-- A task that has started and not ended runs. -/
theorem phase_eq_running {s : Session σ τ} (hongoing : s.isComplete = false)
    (hstarted : s.task.phase ≠ .notStarted) : s.task.phase = .running := by
  unfold isComplete at hongoing
  cases hphase : s.task.phase with
  | running => rfl
  | notStarted => exact absurd hphase hstarted
  | finished | terminated =>
    rw [hphase] at hongoing
    cases hongoing

omit [Supply τ] in
theorem goOnWithoutBlock_changes (now : Instant) {s : Session σ τ} {state : String}
    (hphase : s.task.phase = .running) (hcurrent : s.task.current = some state)
    (hmissing : s.table.block? state = none) :
    Changes s (s.goOnWithoutBlock now state (.missingBlock state)).1 := by
  by_cases hbuiltin : Names.isBuiltin state = true
  · exact (Change.halted s now state _ hphase hcurrent hmissing hbuiltin).changes
  · -- a state that is not built in leads to `failure`
    have hne : state ≠ Names.finish ∧ state ≠ Names.terminate ∧ state ≠ Names.failure := by
      refine ⟨?_, ?_, ?_⟩ <;> rintro rfl <;> exact hbuiltin (by decide)
    unfold goOnWithoutBlock
    rw [if_neg hne.1, if_neg hne.2.1, if_neg hne.2.2]
    have hnoted := (Change.noted s _ (.dangling hcurrent hmissing)).changes
    exact hnoted.trans (goToFailure_changes now _ hphase hcurrent)

theorem goOn_changes (watch : Watch) (now : Instant) {s : Session σ τ} {state : String}
    (hphase : s.task.phase = .running) (hcurrent : s.task.current = some state) :
    Changes s (s.goOn watch now state).1 := by
  unfold goOn Table.block
  cases hb : s.table.block? state with
  | some b => exact selectFrom_changes watch now hphase hcurrent hb
  | none => exact goOnWithoutBlock_changes now hphase hcurrent hb

/-- What follows once the first state is entered: an error in it leads to its error transition, and
without one the step goes on. -/
def settleStart (watch : Watch) (now : Instant) (state : String) (s : Session σ τ) :
    Option Trouble → Outcome σ τ
  | none => s.goOn watch now state
  | some trouble =>
    if state = Names.failure then (s.note trouble, .ok (.running 0))
    else ((s.note trouble).goToError now state trouble).outcome

theorem start_eq (watch : Watch) (now : Instant) {s : Session σ τ} {state : String}
    (h : s.table.startState = .ok state) :
    s.start watch now =
      ((s.enterStart now state).enterLive state none).1.settleStart watch now state
        ((s.enterStart now state).enterLive state none).2 := by
  unfold start enterStart
  rw [h]
  dsimp only
  generalize enterLive _ state none = entered
  obtain ⟨s', _ | trouble⟩ := entered <;> rfl

theorem start_changes (watch : Watch) (now : Instant) {s : Session σ τ}
    (hongoing : s.isComplete = false)
    (hfresh : s.task.phase = .notStarted ∨ s.task.current = none) :
    Changes s (s.start watch now).1 := by
  cases hstart : s.table.startState with
  | error e =>
    unfold start
    rw [hstart]
  | ok state =>
    have hstarted := (Change.started s now state hongoing hfresh hstart).changes
    have hphase : (s.enterStart now state).task.phase = .running :=
      congrArg Trace.phase (s.trace_enterStart now state)
    have hcurrent : (s.enterStart now state).task.current = some state :=
      congrArg Trace.current (s.trace_enterStart now state)
    have hchanges := hstarted.trans (enterLive_changes (s.enterStart now state) state none)
    have htrace := (s.enterStart now state).trace_enterLive state none
    have harises := fun t => @arises_of_enterLive _ _ _ state none t hcurrent
    replace hphase := (phase_of_trace htrace).trans hphase
    replace hcurrent := (current_of_trace htrace).trans hcurrent
    rw [start_eq watch now hstart]
    generalize (s.enterStart now state).enterLive state none = entered at *
    obtain ⟨s', _ | trouble⟩ := entered
    · exact hchanges.trans (goOn_changes watch now hphase hcurrent)
    · have hnoted := hchanges.tail (.noted s' trouble (harises trouble rfl))
      simp only [settleStart]
      split
      · exact hnoted
      · exact hnoted.trans (goToError_changes now _ hphase hcurrent)

/-- A step is a chain of changes, whatever it sees of the pause flag. -/
theorem stepSeeing_changes (watch : Watch) (now : Instant) (s : Session σ τ) :
    Changes s (s.stepSeeing watch now).1 := by
  unfold stepSeeing
  cases hcomplete : s.isComplete with
  | true => exact .refl
  | false =>
    simp only [Bool.false_eq_true, if_false]
    split
    · next signal hsignal => exact (Change.terminated s now signal hcomplete hsignal).changes
    · split
      · exact .refl
      · split
        · next hphase => exact start_changes watch now hcomplete (.inl hphase)
        · next hcurrent _ => exact start_changes watch now hcomplete (.inr hcurrent)
        · next state hcurrent hstarted =>
          exact goOn_changes watch now (phase_eq_running hcomplete hstarted) hcurrent

end Asking

end Session
end TaskTable
