import TaskTable.Proofs.Session.Limits
import TaskTable.Proofs.Timers

/-!
# The life of a task

A task is untouched until its first step, then it runs, and then it is over; what is set down about
it agrees with that at all times. `Leaves` says how a step leaves a task that runs, together with
what it returns, and is shown for every operation along the way that a step goes.
-/

namespace TaskTable

/-! ## The three stages -/

/-- A task to which nothing has happened. -/
structure Task.Untouched (t : Task) : Prop where
  phase : t.phase = .notStarted
  current : t.current = none
  events : t.recording.events = []
  counts : t.counts = .empty
  exit : t.exit = none
  started : t.recording.startedAt = none
  ended : t.recording.endedAt = none
  timers : t.timers = {}

/-- A task that has ended. -/
structure Task.Over (t : Task) : Prop where
  phase : t.phase.isTerminal = true
  exit : ∃ exit, t.exit = some exit
  ended : t.recording.endedAt.isSome = true
  timers : t.timers.active = none

/-- How the phase of a task may change: it starts once and ends once. -/
inductive Phase.Becomes : Phase → Phase → Prop
  | stays (p : Phase) : Becomes p p
  | starts : Becomes .notStarted .running
  | ends {p q : Phase} (ongoing : p.isTerminal = false) (terminal : q.isTerminal = true) :
    Becomes p q

namespace Session

variable {σ τ : Type}

/-- The task is under way: it is in a state, whose timer runs, and it has started and not ended. -/
structure Runs (s : Session σ τ) : Prop where
  phase : s.task.phase = .running
  current : ∃ state, s.task.current = some state ∧
    s.task.timers.active.map RunningTimer.name = some (s.timerOf state)
  started : s.task.recording.startedAt.isSome = true
  ended : s.task.recording.endedAt = none

/-- Every task is in one of three stages. -/
inductive Stage (s : Session σ τ) : Prop
  | untouched (untouched : s.task.Untouched)
  | runs (runs : s.Runs)
  | ended (past : s.task.Over)

theorem Runs.isComplete {s : Session σ τ} (h : s.Runs) : s.isComplete = false := by
  rw [Session.isComplete, h.phase]
  rfl

/-! The phase tells the stage. -/

theorem Stage.untouched_of_phase {s : Session σ τ} (h : s.Stage)
    (hphase : s.task.phase = .notStarted) : s.task.Untouched := by
  cases h with
  | untouched untouched => exact untouched
  | runs runs => cases hphase.symm.trans runs.phase
  | ended past => exact absurd past.phase (by rw [hphase]; decide)

theorem Stage.runs_of_phase {s : Session σ τ} (h : s.Stage) (hphase : s.task.phase = .running) :
    s.Runs := by
  cases h with
  | untouched untouched => cases hphase.symm.trans untouched.phase
  | runs runs => exact runs
  | ended past => exact absurd past.phase (by rw [hphase]; decide)

theorem Stage.over_of_isComplete {s : Session σ τ} (h : s.Stage) (hcomplete : s.isComplete = true) :
    s.task.Over := by
  cases h with
  | untouched untouched => exact absurd hcomplete (by rw [isComplete, untouched.phase]; decide)
  | runs runs => exact absurd hcomplete (by rw [runs.isComplete]; decide)
  | ended past => exact past

/-- A task that has not ended has not started, or runs. -/
theorem Stage.ongoing {s : Session σ τ} (h : s.Stage) (hongoing : s.isComplete = false) :
    s.task.Untouched ∨ s.Runs := by
  cases h with
  | untouched untouched => exact .inl untouched
  | runs runs => exact .inr runs
  | ended past => exact absurd (show s.isComplete = true from past.phase) (by rw [hongoing]; decide)

/-! ## What running tasks go through -/

theorem Runs.afterCall {s : Session σ τ} (h : s.Runs) (state : String) (memory : σ) (d : Desk) :
    (s.afterCall state memory d).Runs :=
  ⟨h.phase, h.current, h.started, h.ended⟩

theorem Runs.note {s : Session σ τ} (h : s.Runs) (t : Trouble) : (s.note t).Runs :=
  ⟨h.phase, h.current, h.started, h.ended⟩

theorem Runs.enterLive {s : Session σ τ} (h : s.Runs) (state : String) (cause : Option String) :
    (s.enterLive state cause).1.Runs := by
  rcases s.enterLive_eq state cause with heq | ⟨-, memory, desk, -, heq⟩ <;> rw [heq]
  · exact h
  · exact h.afterCall state memory desk

/-- A task that has started and not ended runs once it arrives at a state. -/
theorem runs_arrive {s : Session σ τ} (now : Instant) (state : String) (executed : Bool)
    (hphase : s.task.phase = .running) (hstarted : s.task.recording.startedAt.isSome = true)
    (hended : s.task.recording.endedAt = none) : (s.arrive now state executed).Runs :=
  ⟨hphase, ⟨state, rfl, Timers.active_engage _ _ _ _⟩, hstarted, hended⟩

theorem Runs.move {s : Session σ τ} (h : s.Runs) (now : Instant) (m : Move) :
    (s.move now m).Runs := by
  -- leaving a state counts and records, and touches neither the phase nor the marks
  have hdepart : (s.depart now m).task.phase = .running ∧
      (s.depart now m).task.recording.startedAt.isSome = true ∧
      (s.depart now m).task.recording.endedAt = none := by
    unfold depart
    split <;> exact ⟨h.phase, h.started, h.ended⟩
  obtain ⟨hphase, hstarted, hended⟩ := hdepart
  have harrive := runs_arrive now m.transition.target m.transition.exec hphase hstarted hended
  unfold Session.move
  dsimp only
  split
  · exact ⟨harrive.phase, harrive.current, harrive.started, harrive.ended⟩
  · exact harrive

theorem Runs.enterTarget {s : Session σ τ} (h : s.Runs) (now : Instant) (m : Move) :
    (s.enterTarget now m).1.Runs := by
  unfold Session.enterTarget
  split
  · exact (h.move now m).enterLive _ _
  · exact h.move now m

/-- A task is over once it is completed. -/
theorem over_complete (s : Session σ τ) (now : Instant) {phase : Phase} (exit : Exit)
    (hphase : phase.isTerminal = true) : (s.complete now phase exit).task.Over where
  phase := hphase
  exit := ⟨_, rfl⟩
  ended := by
    show (s.task.recording.endedAt <|> some now).isSome = true
    cases s.task.recording.endedAt <;> rfl
  timers := Timers.active_stop _ _

/-- The result of a task that is over is its exit. -/
theorem completed_of_over {s : Session σ τ} (h : s.task.Over) (wait : Nat) :
    ∃ exit, s.task.exit = some exit ∧ s.completed wait = .completed exit wait := by
  obtain ⟨exit, hexit⟩ := h.exit
  refine ⟨exit, hexit, ?_⟩
  unfold completed
  rw [hexit]
  rfl

/-! ## How a step leaves a running task -/

/-- How a step leaves a task that runs, and what it returns. -/
inductive Leaves : Outcome σ τ → Prop
  | running (s : Session σ τ) (wait : Nat) (runs : s.Runs) : Leaves (s, .ok (.running wait))
  | ended (s : Session σ τ) (wait : Nat) (past : s.task.Over) : Leaves (s, .ok (s.completed wait))
  /-- The task is in `failure`, from where nothing leads on. -/
  | stuck (s : Session σ τ) (state cause : String) (past : s.task.Over)
      (phase : s.task.phase = .finished) (exit : s.task.exit = some ⟨.systemError, some cause⟩) :
      Leaves (s, .error (.unrecoverable state cause))
  /-- The supply has given out. -/
  | unsupplied (s : Session σ τ) (e : SupplyError) (runs : s.Runs) : Leaves (s, .error (.supply e))

theorem follow_leaves {now : Instant} {recover : Session σ τ → String → Trouble → Stepped σ τ}
    {s : Session σ τ} {m : Move} (h : s.Runs)
    (hrecover : m.transition.target = Names.failure ∨ ∀ (s' : Session σ τ) (trouble : Trouble),
      s'.Runs → Leaves (recover s' m.transition.target trouble).outcome) :
    Leaves (s.follow now recover m).outcome := by
  have hruns := h.enterTarget now m
  rw [follow_eq]
  generalize s.enterTarget now m = entered at hruns ⊢
  obtain ⟨s', _ | trouble⟩ := entered
  · simp only [settle]
    split
    · exact .ended _ _ (over_complete _ _ _ rfl)
    · exact .running _ _ hruns
  · simp only [settle]
    split
    · exact .running _ _ (hruns.note trouble)
    · next hne => exact hrecover.resolve_left hne _ _ (hruns.note trouble)

theorem goToFailure_leaves (now : Instant) {s : Session σ τ} (h : s.Runs) (state : String)
    (cause : Trouble) : Leaves (s.goToFailure now state cause).outcome :=
  follow_leaves h (.inl rfl)

theorem goToError_leaves (now : Instant) {s : Session σ τ} (h : s.Runs) (state : String)
    (cause : Trouble) : Leaves (s.goToError now state cause).outcome :=
  follow_leaves h (.inr fun _ _ h => goToFailure_leaves now h _ _)

theorem takeError_leaves (now : Instant) {s : Session σ τ} (h : s.Runs) (b : Block) (state : String)
    (requested : Option String) (cause : Trouble) :
    Leaves (s.takeError now b state requested cause) :=
  follow_leaves h (.inr fun _ _ h => goToError_leaves now h _ _)

theorem takeValue_leaves (watch : Watch) (now : Instant) {s : Session σ τ} (h : s.Runs) (b : Block)
    (state value : String) : Leaves (s.takeValue watch now b state value) := by
  have htakes := s.takeValue_takes watch now b state value
  generalize s.takeValue watch now b state value = o at *
  cases htakes with
  | error => exact takeError_leaves now h _ _ _ _
  | taken => exact follow_leaves h (.inr fun _ _ h => goToError_leaves now h _ _)
  | held trouble => exact .running _ _ (h.note trouble)
  | refused trouble => exact takeError_leaves now (h.note trouble) _ _ _ _

theorem goOnWithoutBlock_leaves (now : Instant) {s : Session σ τ} (h : s.Runs) (state : String)
    (e : TableError) : Leaves (s.goOnWithoutBlock now state e) := by
  unfold goOnWithoutBlock
  split
  · exact .ended _ _ (over_complete _ _ _ rfl)
  · split
    · exact .ended _ _ (over_complete _ _ _ rfl)
    · split
      · -- a task in `failure` is finished, with the error as its exit
        exact .stuck _ _ _ (over_complete _ _ _ rfl) rfl rfl
      · exact goToFailure_leaves now (h.note _) _ _

theorem terminate_over (now : Instant) (s : Session σ τ) (reason : String) :
    (s.terminate now reason).1.task.Over ∧ (s.terminate now reason).1.task.phase = .terminated ∧
      (s.terminate now reason).2 = .ok ((s.terminate now reason).1.completed 0) := by
  refine ⟨?_, ?_, rfl⟩
  · unfold terminate
    dsimp only
    split
    · exact over_complete _ _ _ rfl
    · split <;> exact over_complete _ _ _ rfl
  · unfold terminate
    dsimp only
    split
    · rfl
    · split <;> rfl

theorem terminate_leaves (now : Instant) (s : Session σ τ) (reason : String) :
    Leaves (s.terminate now reason) := by
  obtain ⟨hover, -, -⟩ := s.terminate_over now reason
  exact .ended _ 0 hover

section Asking

variable [Supply τ]

theorem selectFrom_leaves (watch : Watch) (now : Instant) {s : Session σ τ} (h : s.Runs) (b : Block)
    (state : String) : Leaves (s.selectFrom watch now b state) := by
  have hasks := s.askValue_asks state b.method
  unfold selectFrom
  split
  · exact .running _ _ h
  · generalize s.askValue state b.method = asked at *
    cases hasks with
    | supplied before after =>
      exact takeValue_leaves watch now (s := { s with supply := some after })
        ⟨h.phase, h.current, h.started, h.ended⟩ b state _
    | gaveOut => exact .unsupplied _ _ ⟨h.phase, h.current, h.started, h.ended⟩
    | selected memory desk => exact takeValue_leaves watch now (h.afterCall _ _ _) _ _ _
    | standIn => exact takeValue_leaves watch now h _ _ _
    | failed => exact takeError_leaves now ((h.afterCall _ _ _).note _) _ _ _ _
    | missing => exact takeError_leaves now (h.note _) _ _ _ _

theorem goOn_leaves (watch : Watch) (now : Instant) {s : Session σ τ} (h : s.Runs)
    (state : String) : Leaves (s.goOn watch now state) := by
  unfold goOn
  split
  · exact selectFrom_leaves watch now h _ _
  · exact goOnWithoutBlock_leaves now h _ _

/-- A task that starts runs from then on. -/
theorem start_leaves (watch : Watch) (now : Instant) {s : Session σ τ} (h : s.task.Untouched)
    {state : String} (hstart : s.table.startState = .ok state) : Leaves (s.start watch now) := by
  have hruns : (s.enterStart now state).Runs := by
    refine runs_arrive now state true rfl ?_ h.ended
    show (s.task.recording.startedAt <|> some now).isSome = true
    rw [h.started]
    rfl
  have hentered := hruns.enterLive state none
  rw [start_eq watch now hstart]
  generalize (s.enterStart now state).enterLive state none = entered at hentered ⊢
  obtain ⟨s', _ | trouble⟩ := entered
  · exact goOn_leaves watch now hentered state
  · simp only [settleStart]
    split
    · exact .running _ _ (hentered.note trouble)
    · exact goToError_leaves now (hentered.note trouble) _ _

/-! ## Whole steps -/

/-- How a step leaves a task: as it was, if it is held back or over, or as an operation does that
takes it on. -/
theorem stepSeeing_leaves (watch : Watch) (now : Instant) {s : Session σ τ} (h : s.Stage)
    {state : String} (hstart : s.table.startState = .ok state) :
    s.stepSeeing watch now = (s, .ok (s.completed 0)) ∧ s.task.Over ∨
      s.isComplete = false ∧
        (s.stepSeeing watch now = s.held ∨ Leaves (s.stepSeeing watch now)) := by
  unfold stepSeeing
  cases hcomplete : s.isComplete with
  | true => exact .inl ⟨rfl, h.over_of_isComplete hcomplete⟩
  | false =>
    simp only [Bool.false_eq_true, if_false]
    split
    · exact .inr ⟨trivial, .inr (terminate_leaves now _ _)⟩
    · split
      · exact .inr ⟨trivial, .inl rfl⟩
      · refine .inr ⟨trivial, .inr ?_⟩
        rcases h.ongoing hcomplete with untouched | runs
        · rw [untouched.phase]
          exact start_leaves watch now untouched hstart
        · obtain ⟨here, hcurrent, -⟩ := runs.current
          rw [runs.phase, hcurrent]
          exact goOn_leaves watch now runs here

end Asking

/-- What a step returns tells how it leaves the task. -/
structure Tells (o : Outcome σ τ) : Prop where
  /-- A result says that the task is complete exactly if it has ended. -/
  complete : ∀ r, o.2 = .ok r → (r.complete = true ↔ o.1.isComplete = true)
  /-- It then gives the exit of the task. -/
  exit : ∀ r, o.2 = .ok r → r.complete = true →
    ∃ exit, o.1.task.exit = some exit ∧ r.status = exit.status ∧ r.message = exit.message
  unrecoverable : ∀ state cause, o.2 = .error (.unrecoverable state cause) →
    o.1.task.phase = .finished ∧ ∃ exit, o.1.task.exit = some exit ∧ exit.status = .systemError
  supply : ∀ e, o.2 = .error (.supply e) → o.1.task.phase = .running
  /-- There is no fault of another kind. -/
  fault : ∀ fault, o.2 = .error fault →
    (∃ state cause, fault = .unrecoverable state cause) ∨ ∃ e, fault = .supply e

theorem tells_running {s : Session σ τ} (wait : Nat) (h : s.isComplete = false) :
    Tells (s, .ok (.running wait)) where
  complete := by
    rintro r ⟨⟩
    simp [StepResult.running, h]
  exit := by rintro r ⟨⟩ ⟨⟩
  unrecoverable := nofun
  supply := nofun
  fault := nofun

theorem tells_completed {s : Session σ τ} (wait : Nat) (h : s.task.Over) :
    Tells (s, .ok (s.completed wait)) := by
  obtain ⟨exit, hexit, hresult⟩ := completed_of_over h wait
  rw [hresult]
  refine ⟨?_, ?_, nofun, nofun, nofun⟩
  · rintro r ⟨⟩
    exact ⟨fun _ => h.phase, fun _ => rfl⟩
  · rintro r ⟨⟩ -
    exact ⟨exit, hexit, rfl, rfl⟩

theorem Leaves.tells {o : Outcome σ τ} (h : Leaves o) : Tells o := by
  cases h with
  | running s wait runs => exact tells_running wait runs.isComplete
  | ended s wait past => exact tells_completed wait past
  | stuck s state cause past phase exit =>
    refine ⟨nofun, nofun, fun _ _ _ => ⟨phase, _, exit, rfl⟩, nofun, ?_⟩
    rintro fault ⟨⟩
    exact .inl ⟨_, _, rfl⟩
  | unsupplied s e runs =>
    refine ⟨nofun, nofun, nofun, fun _ _ => runs.phase, ?_⟩
    rintro fault ⟨⟩
    exact .inr ⟨_, rfl⟩

theorem Leaves.stage {o : Outcome σ τ} (h : Leaves o) : o.1.Stage := by
  cases h with
  | running _ _ runs | unsupplied _ _ runs => exact .runs runs
  | ended _ _ past | stuck _ _ _ past => exact .ended past

/-- A task that has not ended may take any of the ways that a step leaves it. -/
theorem Leaves.becomes {o : Outcome σ τ} (h : Leaves o) {s : Session σ τ} (hstage : s.Stage)
    (hongoing : s.isComplete = false) : s.task.phase.Becomes o.1.task.phase := by
  have hruns : o.1.Runs → s.task.phase.Becomes o.1.task.phase := by
    intro hruns
    rw [hruns.phase]
    rcases hstage.ongoing hongoing with untouched | runs
    · rw [untouched.phase]
      exact .starts
    · rw [runs.phase]
      exact .stays _
  cases h with
  | running _ _ runs | unsupplied _ _ runs => exact hruns runs
  | ended _ _ past | stuck _ _ _ past => exact .ends hongoing past.phase

/-! ## Whole courses -/

section Acting

variable [Supply τ]

/-- What is done between two steps leaves a task in its stage. -/
theorem Stage.act {s : Session σ τ} (h : s.Stage) {a : Action τ}
    (hstep : ∀ watch now, a ≠ .step watch now) : (s.act a).Stage := by
  -- a stage depends on the task, and on the table for the name of the timer
  have hkeeps : ∀ s' : Session σ τ, s'.table = s.table → s'.task = s.task → s'.Stage := by
    intro s' htable htask
    cases h with
    | untouched untouched => exact .untouched (htask ▸ untouched)
    | runs runs =>
      refine .runs ⟨htask ▸ runs.phase, ?_, htask ▸ runs.started, htask ▸ runs.ended⟩
      unfold timerOf
      rw [htask, htable]
      exact runs.current
    | ended past => exact .ended (htask ▸ past)
  cases a with
  | step watch now => exact absurd rfl (hstep watch now)
  | hold | send | simulate | stopSimulating => exact hkeeps _ rfl rfl
  | clearCount state value =>
    rcases s.clearCount_act state value with heq | ⟨line, heq⟩ <;> rw [heq]
    · exact h
    · cases h with
      | untouched untouched =>
        -- there is no count to clear yet
        obtain ⟨phase, current, events, counts, exit, started, ended, timers⟩ := untouched
        refine .untouched ⟨phase, current, events, ?_, exit, started, ended, timers⟩
        show s.task.counts.erase line = _
        rw [counts]
        rfl
      | runs runs => exact .runs ⟨runs.phase, runs.current, runs.started, runs.ended⟩
      | ended past => exact .ended ⟨past.phase, past.exit, past.ended, past.timers⟩

/-- A step keeps every task in a stage, returns what tells how it left the task, and changes its
phase in a permitted way. -/
theorem stepSeeing_stage (watch : Watch) (now : Instant) {s : Session σ τ} (h : s.Stage)
    {state : String} (hstart : s.table.startState = .ok state) :
    (s.stepSeeing watch now).1.Stage ∧ Tells (s.stepSeeing watch now) ∧
      s.task.phase.Becomes (s.stepSeeing watch now).1.task.phase := by
  rcases stepSeeing_leaves watch now h hstart with ⟨heq, hover⟩ | ⟨hongoing, heq | hleaves⟩
  · rw [heq]
    exact ⟨h, tells_completed 0 hover, .stays _⟩
  · rw [heq]
    exact ⟨h, tells_running _ hongoing, .stays _⟩
  · exact ⟨hleaves.stage, hleaves.tells, hleaves.becomes h hongoing⟩

theorem stage_act {s : Session σ τ} (h : s.Stage) {state : String}
    (hstart : s.table.startState = .ok state) (a : Action τ) :
    (s.act a).Stage ∧ s.task.phase.Becomes (s.act a).task.phase := by
  by_cases hstep : ∃ watch now, a = .step watch now
  · obtain ⟨watch, now, rfl⟩ := hstep
    obtain ⟨hstage, -, hbecomes⟩ := stepSeeing_stage watch now h hstart
    exact ⟨hstage, hbecomes⟩
  · have hstep : ∀ watch now, a ≠ .step watch now := fun watch now h => hstep ⟨watch, now, h⟩
    have hphase : (s.act a).task.phase = s.task.phase := (place_act hstep).1
    rw [hphase]
    exact ⟨h.act hstep, .stays _⟩

theorem stage_course {s : Session σ τ} (h : s.Stage) {state : String}
    (hstart : s.table.startState = .ok state) (as : List (Action τ)) : (s.course as).Stage := by
  induction as generalizing s with
  | nil => exact h
  | cons a as ih =>
    refine ih (stage_act h hstart a).1 ?_
    rw [table_act]
    exact hstart

/-- A new task goes through its life in order, along any course. Until it starts nothing is set down
about it; while it runs it is in a state whose timer runs; once it has ended it has an exit and no
timer runs. It starts once and ends once, what a step returns tells how it left the task, and a step
of a task that has ended changes nothing at all. -/
theorem task_lifecycle {u : Setup σ τ} (hnew : u.stored = none) {now : Instant} {s : Session σ τ}
    (hbuild : (u.build now).2 = .ok s) (as : List (Action τ)) :
    ((s.course as).task.phase = .notStarted → (s.course as).task.Untouched) ∧
    ((s.course as).task.phase = .running → (s.course as).Runs) ∧
    ((s.course as).task.phase.isTerminal = true → (s.course as).task.Over) ∧
    (∀ a, (s.course as).task.phase.Becomes ((s.course as).act a).task.phase) ∧
    ∀ watch now', Tells ((s.course as).stepSeeing watch now') ∧
      ((s.course as).task.phase.isTerminal = true →
        ((s.course as).stepSeeing watch now').1 = s.course as) := by
  obtain ⟨rfl, state, hstart⟩ := u.eq_newSession hnew hbuild
  have hfirst : (u.newSession now).Stage :=
    .untouched ⟨rfl, rfl, rfl, rfl, rfl, rfl, rfl, rfl⟩
  have hstage := stage_course hfirst hstart as
  have htable : ((u.newSession now).course as).table.startState = .ok state := by
    rw [table_course]
    exact hstart
  refine ⟨hstage.untouched_of_phase, hstage.runs_of_phase, hstage.over_of_isComplete,
    fun a => (stage_act hstage htable a).2, fun watch now' =>
      ⟨(stepSeeing_stage watch now' hstage htable).2.1, fun hterminal => ?_⟩⟩
  unfold stepSeeing
  rw [if_pos (show isComplete _ = true from hterminal)]

end Acting

/-- A task that always asks to poll again runs into `failure`, which its table has no block for. It
still runs then, and the next step ends it for good. -/
theorem task_lifecycle_pollAgain :
    (pollAgain.build ⟨0, 0⟩).2 = .ok (pollAgain.newSession ⟨0, 0⟩) ∧
      ((pollAgain.newSession ⟨0, 0⟩).course (List.replicate 3 (.step .steady ⟨0, 0⟩))).Runs ∧
      (((pollAgain.newSession ⟨0, 0⟩).course
        (List.replicate 3 (.step .steady ⟨0, 0⟩))).stepSeeing .steady ⟨0, 0⟩).1.task.phase =
          .finished := by
  have hbuild : (pollAgain.build ⟨0, 0⟩).2 = .ok (pollAgain.newSession ⟨0, 0⟩) := rfl
  obtain ⟨-, hruns, -, -, hsteps⟩ :=
    task_lifecycle rfl hbuild (List.replicate 3 (.step .steady ⟨0, 0⟩))
  obtain ⟨htells, -⟩ := hsteps .steady ⟨0, 0⟩
  exact ⟨hbuild, hruns rfl, (htells.unrecoverable _ _ rfl).1⟩

end Session
end TaskTable
