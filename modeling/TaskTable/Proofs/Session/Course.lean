import TaskTable.Proofs.Session.Change
import TaskTable.Session.Build

/-!
# Courses

All that can be done to a session: steps, and between them pauses, signals, a supply put in or taken
out, and counts cleared. A course is any sequence of these. `course_induction` is how invariants are
carried along a course: they have to hold at first, survive each kind of change, and survive what is
done between steps.
-/

namespace TaskTable

/-- Something that is done to a session. -/
inductive Action (τ : Type)
  /-- A step, with what it sees of the pause flag. -/
  | step (watch : Session.Watch) (now : Instant)
  /-- The pause flag is set or taken down. -/
  | hold (paused : Bool)
  | send (task : String) (reason : Option String)
  | simulate (supply : τ)
  | stopSimulating
  | clearCount (state value : String)

/-- Whether a count is cleared. -/
def Action.clearsCount {τ : Type} : Action τ → Bool
  | clearCount _ _ => true
  | _ => false

/-- The trace of a task that has not started. -/
def Trace.fresh : Trace where
  phase := .notStarted
  current := none
  counts := .empty
  events := []

namespace Setup

variable {σ τ : Type}

/-- The session of a new task. -/
def newSession (u : Setup σ τ) (now : Instant) : Session σ τ :=
  u.session u.memory
    { Task.create u.taskId u.table.sourceHash now with versions := u.handler.versions }

/-- What is built for a new task is its session, and only for a table with a first state. -/
theorem eq_newSession {u : Setup σ τ} {now : Instant} {s : Session σ τ} (hnew : u.stored = none)
    (h : (u.build now).2 = .ok s) :
    s = u.newSession now ∧ ∃ state, u.table.startState = .ok state := by
  unfold build at h
  split at h
  · cases h
  · next state hstart =>
    rw [hnew] at h
    cases h
    exact ⟨rfl, state, hstart⟩

end Setup

namespace Session

variable {σ τ : Type}

/-- A task in a built-in state without a block is over: at most its exit is set before it ends. -/
theorem goOnWithoutBlock_builtin (now : Instant) (s : Session σ τ) {state : String} (e : TableError)
    (hbuiltin : Names.isBuiltin state = true) :
    ∃ set exit phase, phase.isTerminal = true ∧
      (s.goOnWithoutBlock now state e).1 =
        (s.updateTask fun t => { t with exit := set }).complete now phase exit := by
  unfold goOnWithoutBlock
  split
  · exact ⟨s.task.exit, _, .finished, rfl, rfl⟩
  · split
    · exact ⟨s.task.exit, _, .terminated, rfl, rfl⟩
    · split
      · exact ⟨_, _, .finished, rfl, rfl⟩
      · next hfinish hterminate hfailure =>
        -- no built-in state is left
        simp [Names.isBuiltin, Names.builtinStates, hfinish, hterminate, hfailure] at hbuiltin

/-! ## What stays as it is -/

/-- Terminating a task leaves all but the task as it is, apart from what a handler leaves. -/
theorem terminate_keeps (now : Instant) (s : Session σ τ) (reason : String) :
    ((s.terminate now reason).1.table = s.table ∧ (s.terminate now reason).1.handler = s.handler) ∧
      (s.terminate now reason).1.supply = s.supply ∧
        (s.terminate now reason).1.troubles = s.troubles := by
  have hlive : ∀ (s : Session σ τ) (state : String) (cause : Option String),
      ((s.enterLive state cause).1.table = s.table ∧
        (s.enterLive state cause).1.handler = s.handler) ∧
      (s.enterLive state cause).1.supply = s.supply ∧
        (s.enterLive state cause).1.troubles = s.troubles := fun s state cause =>
    ⟨⟨s.table_enterLive _ _, s.handler_enterLive _ _⟩, s.supply_enterLive _ _,
      s.troubles_enterLive _ _⟩
  unfold terminate
  dsimp only
  split
  · exact hlive _ _ _
  · split
    · exact hlive _ _ _
    · exact ⟨⟨rfl, rfl⟩, rfl, rfl⟩

/-- What no step changes: the table and the handler. -/
theorem Change.frame {s s' : Session σ τ} (h : Change s s') :
    s'.table = s.table ∧ s'.handler = s.handler := by
  cases h with
  | called | supplied | noted | started | finished => exact ⟨rfl, rfl⟩
  | moved now m allowed =>
    rw [move_eq_updateTask]
    exact ⟨rfl, rfl⟩
  | halted now state e running current missing builtin =>
    obtain ⟨set, exit, phase, -, h⟩ := goOnWithoutBlock_builtin now s e builtin
    rw [h]
    exact ⟨rfl, rfl⟩
  | terminated now signal ongoing pending => exact (terminate_keeps now _ signal.text).1

/-- No change starts or ends a simulation. -/
theorem Change.isSimulating_eq {s s' : Session σ τ} (h : Change s s') :
    s'.isSimulating = s.isSimulating := by
  cases h with
  | called | noted | started | finished => rfl
  | supplied before after simulated =>
    unfold isSimulating
    rw [simulated]
    rfl
  | moved now m allowed =>
    rw [move_eq_updateTask]
    rfl
  | halted now state e running current missing builtin =>
    obtain ⟨set, exit, phase, -, h⟩ := goOnWithoutBlock_builtin now s e builtin
    rw [h]
    rfl
  | terminated now signal ongoing pending =>
    exact congrArg Option.isSome (terminate_keeps now _ signal.text).2.1

/-- A change notes at most one problem, and one that may arise. -/
theorem Change.troubles_eq {s s' : Session σ τ} (h : Change s s') :
    s'.troubles = s.troubles ∨
      ∃ trouble, s.Arises trouble ∧ s'.troubles = s.troubles ++ [trouble] := by
  cases h with
  | called | supplied | started | finished => exact .inl rfl
  | noted trouble arises => exact .inr ⟨trouble, arises, rfl⟩
  | moved now m allowed =>
    rw [move_eq_updateTask]
    exact .inl rfl
  | halted now state e running current missing builtin =>
    obtain ⟨set, exit, phase, -, h⟩ := goOnWithoutBlock_builtin now s e builtin
    rw [h]
    exact .inl rfl
  | terminated now signal ongoing pending =>
    exact .inl (terminate_keeps now _ signal.text).2.2

theorem Changes.table_eq {s s' : Session σ τ} (h : Changes s s') : s'.table = s.table := by
  induction h with
  | refl => rfl
  | tail _ hchange ih => exact hchange.frame.1.trans ih

/-- What every change keeps, any number of changes keep. -/
theorem Changes.keeps {P : Session σ τ → Prop} {s s' : Session σ τ} (h : Changes s s')
    (hchange : ∀ s s', Change s s' → P s → P s') (hfirst : P s) : P s' := by
  induction h with
  | refl => exact hfirst
  | tail _ hlast ih => exact hchange _ _ hlast ih

/-! ## What becomes of the trace -/

/-- What a change makes of the trace. -/
inductive Turns (s : Session σ τ) : Trace → Prop
  | same : Turns s s.trace
  /-- The task enters the state it starts in. -/
  | started (now : Instant) (state : String) (ongoing : s.task.phase.isTerminal = false)
      (fresh : s.task.phase = .notStarted ∨ s.task.current = none)
      (start : s.table.startState = .ok state) :
      Turns s ((s.trace.stop .running).arrive now state true)
  | moved (now : Instant) (m : Move) (allowed : s.Allows m) : Turns s (s.trace.move now m)
  /-- The task ends where it is. -/
  | stopped (phase : Phase) (ongoing : s.task.phase.isTerminal = false)
      (terminal : phase.isTerminal = true) : Turns s (s.trace.stop phase)
  /-- A signal leads the task to `terminate`, where it ends. -/
  | signalled (now : Instant) (ongoing : s.task.phase.isTerminal = false)
      (started : s.task.phase ≠ .notStarted) (block : s.table.hasBlock Names.terminate = true) :
      Turns s (((s.trace.record (.transition (s.task.current.getD "")
        (s.methodOf (s.task.current.getD "")) Names.terminateRequested none .signal now)).arrive
          now Names.terminate true).stop .terminated)

theorem turns_terminate {s : Session σ τ} (now : Instant) (queue : SignalQueue) (reason : String)
    (hongoing : s.task.phase.isTerminal = false) :
    s.Turns ({ s with queue }.terminate now reason).1.trace := by
  unfold terminate
  dsimp only
  split
  · rw [trace_complete, trace_enterLive]
    exact .stopped .terminated hongoing rfl
  · next hstarted =>
    split
    · next hblock =>
      rw [trace_complete, trace_setExit, trace_enterLive, trace_arrive, trace_record]
      exact .signalled now hongoing hstarted hblock
    · exact .stopped .terminated hongoing rfl

/-- Each change turns the trace in one of these ways. -/
theorem Change.turns {s s' : Session σ τ} (h : Change s s') : s.Turns s'.trace := by
  cases h with
  | called state memory desk live =>
    rw [trace_afterCall]
    exact .same
  | supplied | noted => exact .same
  | started now state ongoing fresh start =>
    rw [trace_enterStart]
    exact .started now state ongoing fresh start
  | moved now m allowed =>
    rw [trace_move]
    exact .moved now m allowed
  | finished now running current => exact .stopped .finished (by rw [running]; rfl) rfl
  | halted now state e running current missing builtin =>
    have hongoing : s.task.phase.isTerminal = false := by rw [running]; rfl
    obtain ⟨set, exit, phase, hterminal, h⟩ := goOnWithoutBlock_builtin now s e builtin
    rw [h, trace_complete, trace_setExit]
    exact .stopped phase hongoing hterminal
  | terminated now signal ongoing pending =>
    exact turns_terminate now _ signal.text ongoing

/-! ## Actions -/

section Acting

variable [Supply τ]

/-- The session after an action. -/
def act (s : Session σ τ) : Action τ → Session σ τ
  | .step watch now => (s.stepSeeing watch now).1
  | .hold paused => { s with paused }
  | .send task reason => s.send task reason
  | .simulate supply => s.simulate supply
  | .stopSimulating => s.stopSimulating
  | .clearCount state value =>
    match s.clearCount state value with
    | .ok (s, _) => s
    | .error _ => s

/-- The session after a course of actions. -/
def course (s : Session σ τ) (as : List (Action τ)) : Session σ τ :=
  as.foldl act s

theorem course_append (s : Session σ τ) (as bs : List (Action τ)) :
    s.course (as ++ bs) = (s.course as).course bs :=
  List.foldl_append

/-- What an action gives back: a step gives its result. -/
def replies (s : Session σ τ) : Action τ → List (Except Fault StepResult)
  | .step watch now => [(s.stepSeeing watch now).2]
  | _ => []

/-- The results of the steps of a course, in order. -/
def results (s : Session σ τ) : List (Action τ) → List (Except Fault StepResult)
  | [] => []
  | a :: rest => s.replies a ++ (s.act a).results rest

/-- Clearing a count takes off the count of the transition for the value, if there is one. -/
theorem act_clearCount (s : Session σ τ) (state value : String) :
    s.act (.clearCount state value) =
      match (s.table.block? state).bind fun b =>
        b.transition? value <|> b.transition? Names.wildcard with
      | some t => s.updateTask fun task => { task with counts := task.counts.erase t.line }
      | none => s := by
  simp only [act, clearCount, Task.clearCount, Table.block]
  cases s.table.block? state with
  | none => rfl
  | some b =>
    dsimp only [bind, Except.bind, pure, Except.pure, Option.bind]
    cases b.transition? value <|> b.transition? Names.wildcard <;> rfl

/-- Clearing a count takes at most one entry off the counts. -/
theorem clearCount_act (s : Session σ τ) (state value : String) :
    s.act (.clearCount state value) = s ∨
      ∃ line, s.act (.clearCount state value) =
        s.updateTask fun t => { t with counts := t.counts.erase line } := by
  rw [act_clearCount]
  split
  · next t _ => exact .inr ⟨t.line, rfl⟩
  · exact .inl rfl

/-- What is true at first and kept by every change and every action between steps is true all along
a course. -/
theorem course_induction {P : Session σ τ → Prop} {s : Session σ τ} {as : List (Action τ)}
    (hfirst : P s) (hchange : ∀ s s', Change s s' → P s → P s')
    (hact : ∀ s a, a ∈ as → (∀ watch now, a ≠ .step watch now) → P s → P (s.act a)) :
    P (s.course as) := by
  induction as generalizing s with
  | nil => exact hfirst
  | cons a rest ih =>
    refine ih ?_ fun s' a' ha' => hact s' a' (List.mem_cons_of_mem _ ha')
    cases a with
    | step watch now =>
      -- a step is a chain of changes; all other actions fall between steps
      exact (s.stepSeeing_changes watch now).keeps hchange hfirst
    | hold | send | simulate | stopSimulating | clearCount =>
      exact hact s _ List.mem_cons_self (fun _ _ h => by cases h) hfirst

theorem table_act (s : Session σ τ) (a : Action τ) : (s.act a).table = s.table := by
  cases a with
  | step watch now => exact (s.stepSeeing_changes watch now).table_eq
  | hold | send | simulate | stopSimulating => rfl
  | clearCount state value =>
    rcases s.clearCount_act state value with h | ⟨line, h⟩ <;> rw [h]
    rfl

theorem table_course (s : Session σ τ) (as : List (Action τ)) :
    (s.course as).table = s.table := by
  induction as generalizing s with
  | nil => rfl
  | cons a rest ih => exact (ih (s.act a)).trans (s.table_act a)

theorem handler_act (s : Session σ τ) (a : Action τ) : (s.act a).handler = s.handler := by
  cases a with
  | step watch now =>
    exact (s.stepSeeing_changes watch now).keeps (P := fun s' => s'.handler = s.handler)
      (fun _ _ hchange hs => hchange.frame.2.trans hs) rfl
  | hold | send | simulate | stopSimulating => rfl
  | clearCount state value =>
    rcases s.clearCount_act state value with h | ⟨line, h⟩ <;> rw [h]
    rfl

theorem handler_course (s : Session σ τ) (as : List (Action τ)) :
    (s.course as).handler = s.handler := by
  induction as generalizing s with
  | nil => rfl
  | cons a rest ih => exact (ih (s.act a)).trans (s.handler_act a)

/-- What is done between two steps keeps the handler and the problems met. -/
theorem act_keeps {s : Session σ τ} {a : Action τ} (hstep : ∀ watch now, a ≠ .step watch now) :
    (s.act a).handler = s.handler ∧ (s.act a).troubles = s.troubles := by
  cases a with
  | step watch now => exact absurd rfl (hstep watch now)
  | hold | send | simulate | stopSimulating => exact ⟨rfl, rfl⟩
  | clearCount state value =>
    rcases s.clearCount_act state value with h | ⟨line, h⟩ <;> rw [h] <;> exact ⟨rfl, rfl⟩

/-- What is done between two steps leaves the trace alone, or takes a count off it. -/
theorem trace_act {s : Session σ τ} {a : Action τ} (hstep : ∀ watch now, a ≠ .step watch now) :
    (s.act a).trace = s.trace ∨ a.clearsCount = true ∧
      ∃ line, (s.act a).trace = { s.trace with counts := s.trace.counts.erase line } := by
  cases a with
  | step watch now => exact absurd rfl (hstep watch now)
  | hold | send | simulate | stopSimulating => exact .inl rfl
  | clearCount state value =>
    rcases s.clearCount_act state value with h | ⟨line, h⟩ <;> rw [h]
    · exact .inl rfl
    · exact .inr ⟨rfl, line, rfl⟩

/-- What is done between two steps keeps the phase and the current state. -/
theorem place_act {s : Session σ τ} {a : Action τ} (hstep : ∀ watch now, a ≠ .step watch now) :
    (s.act a).trace.phase = s.trace.phase ∧ (s.act a).trace.current = s.trace.current := by
  rcases trace_act hstep with h | ⟨-, line, h⟩ <;> rw [h] <;> exact ⟨rfl, rfl⟩

/-- What is true of the trace at first, and kept by whatever turns it and by taking counts off it,
is true of it all along a course. -/
theorem trace_induction {P : Trace → Prop} {s : Session σ τ} {as : List (Action τ)}
    (hfirst : P s.trace)
    (hturns : ∀ (s' : Session σ τ) (tr : Trace), s'.table = s.table → P s'.trace → s'.Turns tr →
      P tr)
    (herase : ∀ (tr : Trace) (line : Nat), (∃ a ∈ as, a.clearsCount = true) → P tr →
      P { tr with counts := tr.counts.erase line }) :
    P (s.course as).trace := by
  refine (course_induction (P := fun s' => s'.table = s.table ∧ P s'.trace) ⟨rfl, hfirst⟩ ?_ ?_).2
  · rintro s₁ s₂ hchange ⟨htable, hs⟩
    exact ⟨hchange.frame.1.trans htable, hturns s₁ _ htable hs hchange.turns⟩
  · rintro s₁ a ha hstep ⟨htable, hs⟩
    refine ⟨(s₁.table_act a).trans htable, ?_⟩
    rcases trace_act (s := s₁) hstep with h | ⟨hclear, line, h⟩ <;> rw [h]
    · exact hs
    · exact herase _ line ⟨a, ha, hclear⟩ hs

end Acting

end Session
end TaskTable
