import TaskTable.Proofs.Session.Faults
import TaskTable.Proofs.Session.Limits

/-!
# Recovering from failed steps

When the first step of a simulated task fails, the task has entered its first state. The same task
without this step lags behind then, until a script answers: `Trails` says how it does, and that both
come to the same is shown for every course (`Trails.course`).
-/

namespace TaskTable

/-- Whether an event is a transition that a value or an error led to. -/
def Event.isTaken : Event → Bool
  | transition _ _ _ _ origin _ => origin != .signal
  | state .. => false

/-- The transitions that values and errors led to, in order. -/
def Recording.taken (r : Recording) : List Event :=
  r.events.filter Event.isTaken

/-- Whether an event is a transition does not depend on its time. -/
theorem Event.filter_isTaken_withTime (z : Instant) (es : List Event) :
    (es.map (Event.withTime z)).filter Event.isTaken =
      (es.filter Event.isTaken).map (Event.withTime z) := by
  have hkeeps : Event.isTaken ∘ Event.withTime z = Event.isTaken := by
    funext e
    cases e <;> rfl
  rw [List.filter_map, hkeeps]

namespace Session

variable {σ τ : Type}

theorem outline_enterStart [Supply τ] (s : Session σ τ) (z now : Instant) (state : String) :
    (s.enterStart now state).outline z = ((s.outline z).enterStart z state).outline z :=
  ((s.alike_outline z).enterStart now state).outline_eq.symm

/-- Two tasks were terminated, one of them before it had started. -/
structure Stopped (s' s : Session σ τ) : Prop where
  table : s'.table = s.table
  phase' : s'.task.phase = .terminated
  phase : s.task.phase = .terminated
  nowhere : s.task.current = none
  exit : s'.task.exit = s.task.exit
  counts : s'.task.counts = s.task.counts
  taken : ∀ z, s'.task.recording.taken.map (Event.withTime z) =
    s.task.recording.taken.map (Event.withTime z)

/-- How a simulated task whose failed steps are left out trails the task that they are steps of. -/
inductive Trails (s' s : Session σ τ) : Prop
  | abreast (same : ∀ z, s'.outline z = s.outline z)
  /-- The first step has failed, so only the other task has entered its first state. -/
  | behind (state : String) (start : s.table.startState = .ok state)
      (fresh : s.task.phase = .notStarted)
      (same : ∀ z, s'.outline z = ((s.outline z).enterStart z state).outline z)
  | stopped (stopped : Stopped s' s)

/-! ## Tasks that are terminated -/

theorem terminate_keeps_counts (now : Instant) (s : Session σ τ) (reason : String) :
    (s.terminate now reason).1.task.counts = s.task.counts ∧
      (s.terminate now reason).1.task.recording.taken = s.task.recording.taken := by
  -- the signal adds two events at most, and neither is a transition taken by a value
  suffices h : (s.terminate now reason).1.trace.counts = s.trace.counts ∧
      (s.terminate now reason).1.trace.events.filter Event.isTaken =
        s.trace.events.filter Event.isTaken from h
  unfold terminate
  dsimp only
  split
  · rw [trace_complete, trace_enterLive]
    exact ⟨rfl, rfl⟩
  · split
    · rw [trace_complete, trace_setExit, trace_enterLive, trace_arrive, trace_record]
      refine ⟨rfl, ?_⟩
      simp [Trace.stop, Trace.arrive, Trace.record, Event.isTaken]
    · rw [trace_complete, trace_setExit]
      exact ⟨rfl, rfl⟩

theorem completed_of_exit {s : Session σ τ} {exit : Exit} (h : s.task.exit = some exit)
    (wait : Nat) : s.completed wait = .completed exit wait := by
  unfold completed
  rw [h]
  rfl

/-- A simulated task that is terminated before it starts has the signal as its exit. -/
theorem terminate_of_fresh {s : Session σ τ} (hsimulated : s.isSimulating = true)
    (hfresh : s.task.phase = .notStarted) (hplaced : s.task.Placed) (now : Instant)
    (reason : String) :
    (s.terminate now reason).1.task.exit = some ⟨.terminated, some reason⟩ ∧
      (s.terminate now reason).1.task.current = none := by
  obtain ⟨hcurrent, hexit⟩ := hplaced.fresh hfresh
  unfold terminate
  dsimp only
  rw [if_pos hfresh, enterLive_of_isSimulating hsimulated]
  refine ⟨?_, hcurrent⟩
  show some (s.task.exit.getD _) = _
  rw [hexit]
  rfl

variable [Supply τ] {s' s : Session σ τ}

omit [Supply τ] in
/-- A signal stops both tasks, the one that has entered its first state and the one that has not. -/
theorem stopped_of_terminate (s' s : Session σ τ) (htable : s'.table = s.table)
    (hstarted : s'.task.phase ≠ .notStarted) (hfresh : s.task.phase = .notStarted)
    (hsimulated : s.isSimulating = true) (hplaced : s.task.Placed)
    (hcounts : s'.task.counts = s.task.counts)
    (htaken : ∀ z, s'.task.recording.taken.map (Event.withTime z) =
      s.task.recording.taken.map (Event.withTime z)) (now : Instant) (reason : String) :
    Stopped (s'.terminate now reason).1 (s.terminate now reason).1 ∧
      (s.terminate now reason).2 = (s'.terminate now reason).2 := by
  obtain ⟨-, hphase', hresult'⟩ := s'.terminate_over now reason
  obtain ⟨-, hphase, hresult⟩ := s.terminate_over now reason
  obtain ⟨hcounts', htaken'⟩ := s'.terminate_keeps_counts now reason
  obtain ⟨hcounts₀, htaken₀⟩ := s.terminate_keeps_counts now reason
  have hexit' := exit_terminate hstarted now reason
  obtain ⟨hexit, hnowhere⟩ := terminate_of_fresh hsimulated hfresh hplaced now reason
  refine ⟨⟨?_, hphase', hphase, hnowhere, hexit'.trans hexit.symm, ?_, fun z => ?_⟩, ?_⟩
  · rw [(s'.terminate_keeps now reason).1.1, (s.terminate_keeps now reason).1.1, htable]
  · rw [hcounts', hcounts₀, hcounts]
  · rw [htaken', htaken₀, htaken]
  · rw [hresult, hresult', completed_of_exit hexit, completed_of_exit hexit']

/-- Nothing happens to a task that has been terminated but that counts are cleared. -/
theorem Stopped.act (h : Stopped s' s) (a : Action τ) :
    Stopped (s'.act a) (s.act a) ∧ s.replies a = s'.replies a := by
  obtain ⟨table, phase', phase, nowhere, exit, counts, taken⟩ := h
  cases a with
  | step watch now =>
    have hstep : ∀ {s : Session σ τ}, s.task.phase = .terminated →
        s.stepSeeing watch now = (s, .ok (s.completed 0)) := by
      intro s hphase
      have hcomplete : s.isComplete = true := isComplete_of_phase hphase
      unfold stepSeeing
      rw [if_pos hcomplete]
    have hcompleted : s.completed 0 = s'.completed 0 := by
      unfold completed
      rw [exit, phase, phase']
    simp only [Session.act, replies, hstep phase, hstep phase', hcompleted, and_true]
    exact ⟨table, phase', phase, nowhere, exit, counts, taken⟩
  | hold | send | simulate | stopSimulating =>
    exact ⟨⟨table, phase', phase, nowhere, exit, counts, taken⟩, rfl⟩
  | clearCount state value =>
    refine ⟨?_, rfl⟩
    rw [act_clearCount, act_clearCount, table]
    split
    · next t _ =>
      exact ⟨table, phase', phase, nowhere, exit, congrArg (·.erase t.line) counts, taken⟩
    · exact ⟨table, phase', phase, nowhere, exit, counts, taken⟩

/-! ## Tasks that have entered their first state -/

/-- A step takes a task on from its first state as it would have from before that. -/
theorem stepSeeing_enterStart {state : String} {watch : Watch} {now : Instant}
    (hsimulated : s.isSimulating = true) (hstart : s.table.startState = .ok state)
    (hfresh : s.task.phase = .notStarted) (hsignal : s.signal? = none)
    (hfree : watch .atStart s.paused = false) :
    (s.enterStart now state).stepSeeing watch now = s.stepSeeing watch now := by
  have hongoing : s.isComplete = false := isComplete_of_phase hfresh
  rw [stepSeeing_start hongoing hsignal hfree hfresh,
    start_of_isSimulating hsimulated watch now hstart]
  exact stepSeeing_goOn (s := s.enterStart now state) hsignal hfree rfl rfl

/-- What is done between two steps is the same before and after the first state is entered. -/
theorem act_enterStart {a : Action τ} (hstep : ∀ watch now, a ≠ .step watch now) (now : Instant)
    (state : String) : (s.enterStart now state).act a = (s.act a).enterStart now state := by
  cases a with
  | step watch now => exact absurd rfl (hstep watch now)
  | hold | send | simulate | stopSimulating => rfl
  | clearCount st value =>
    rw [act_clearCount, act_clearCount, show (s.enterStart now state).table = s.table from rfl]
    split <;> rfl

omit [Supply τ] in
theorem taken_retime (r : Recording) (z : Instant) :
    (r.retime (.still z)).taken = r.taken.map (Event.withTime z) :=
  Event.filter_isTaken_withTime z r.events

/-- What a task that has entered its first state has in common with the same task before that. -/
structure Ahead (state : String) (s' s : Session σ τ) : Prop where
  table : s'.table = s.table
  phase : s'.task.phase = .running
  current : s'.task.current = some state
  signal : s'.signal? = s.signal?
  paused : s'.paused = s.paused
  pauseWait : s'.pauseWait = s.pauseWait
  counts : s'.task.counts = s.task.counts
  exit : s'.task.exit = s.task.exit
  taken : ∀ z, s'.task.recording.taken.map (Event.withTime z) =
    s.task.recording.taken.map (Event.withTime z)

omit [Supply τ] in
theorem Ahead.of_outline {state : String}
    (h : ∀ z, s'.outline z = ((s.outline z).enterStart z state).outline z) : Ahead state s' s := by
  have hfirst := h ⟨0, 0⟩
  refine
    { table := (congrArg Session.table hfirst :)
      phase := (congrArg (·.task.phase) hfirst :)
      current := (congrArg (·.task.current) hfirst :)
      signal := (congrArg Session.signal? hfirst :)
      paused := (congrArg Session.paused hfirst :)
      pauseWait := (congrArg Session.pauseWait hfirst :)
      counts := (congrArg (·.task.counts) hfirst :)
      exit := (congrArg (·.task.exit) hfirst :)
      taken := fun z => ?_ }
  -- the first state is no transition
  have hretimed : (s'.task.recording.retime (.still z)).taken =
      ((((s.task.recording.retime (.still z)).markStarted z).push (.state state true z)).retime
        (.still z)).taken :=
    congrArg (fun s => s.task.recording.taken) (h z)
  have htaken : (((s.task.recording.retime (.still z)).markStarted z).push
      (.state state true z)).taken = (s.task.recording.retime (.still z)).taken := by
    show List.filter Event.isTaken (_ ++ [_]) = _
    rw [List.filter_append]
    exact List.append_nil _
  rw [← taken_retime, hretimed, taken_retime, htaken, ← taken_retime, Recording.retime_retime,
    taken_retime]

/-! ## Trailing along a course -/

namespace Trails

variable {s' s : Session σ AnySupply}

/-- While both tasks are abreast they do the same, until the first step fails. -/
theorem act_abreast (hsame : ∀ z, s'.outline z = s.outline z) (hsimulated : s.isSimulating = true)
    (hplaced : s'.task.Placed) {a : Action AnySupply} (ha : a.endsSimulation = false) :
    (s'.fails a = true → Trails (s'.act a) s) ∧
      (s'.fails a = false → Trails (s'.act a) (s.act a) ∧ s.replies a = s'.replies a) := by
  have htable : s'.table = s.table := (congrArg Session.table (hsame ⟨0, 0⟩) :)
  have hphase : s'.task.phase = s.task.phase := (congrArg (·.task.phase) (hsame ⟨0, 0⟩) :)
  refine ⟨fun hfails => ?_, fun _ => ⟨.abreast fun z => ?_, ?_⟩⟩
  · by_cases hfresh : s'.task.phase = .notStarted
    · obtain ⟨watch, now, state, rfl, hstart, hact⟩ := act_of_fails_fresh hfails hfresh
      refine .behind state (htable ▸ hstart) (hphase ▸ hfresh) fun z => ?_
      rw [hact, outline_enterStart, hsame]
    · rw [act_of_fails hfails hplaced]
      · exact .abreast hsame
      · obtain ⟨watch, now, x, e, rfl, -, -, hfault⟩ := exists_of_fails hfails
        exact hplaced.running (phase_eq_running (stepSeeing_asks hfault).1 hfresh)
  · exact (act_of_outline_eq hsimulated (hsame z) a a ha rfl).1
  · exact (act_of_outline_eq hsimulated (hsame ⟨0, 0⟩) a a ha rfl).2.symm

/-! What is behind enters its first state with the first step that does not fail. -/

section Behind

variable {state : String} (hstart : s.table.startState = .ok state)
  (hfresh : s.task.phase = .notStarted)
  (hsame : ∀ z, s'.outline z = ((s.outline z).enterStart z state).outline z)
  (hsimulated : s.isSimulating = true)

include hstart hfresh hsame hsimulated

theorem step_behind (hplaced : s.task.Placed) (watch : Watch) (now : Instant) :
    Trails (s'.act (.step watch now)) (s.act (.step watch now)) ∧
      s.replies (.step watch now) = s'.replies (.step watch now) := by
  have hahead := Ahead.of_outline hsame
  have hongoing : s.isComplete = false := isComplete_of_phase hfresh
  have hongoing' : s'.isComplete = false := isComplete_of_phase hahead.phase
  have hstarted : s'.task.phase ≠ .notStarted := by
    rw [hahead.phase]
    decide
  cases hsignal : s.signal? with
  | some x =>
    have hsignal' : s'.signal? = some x := hahead.signal.trans hsignal
    simp only [Session.act, replies, stepSeeing_signal hongoing hsignal,
      stepSeeing_signal hongoing' hsignal']
    obtain ⟨hstopped, hresult⟩ := stopped_of_terminate
      { s' with queue := s'.queue.consume s'.task.id x.id }
      { s with queue := s.queue.consume s.task.id x.id }
      hahead.table hstarted hfresh hsimulated hplaced hahead.counts hahead.taken now x.text
    exact ⟨.stopped hstopped, congrArg (fun r => [r]) hresult⟩
  | none =>
    have hsignal' : s'.signal? = none := hahead.signal.trans hsignal
    cases hfree : watch .atStart s.paused with
    | true =>
      have hfree' : watch .atStart s'.paused = true := hahead.paused ▸ hfree
      simp only [Session.act, replies, stepSeeing_held hongoing hsignal hfree,
        stepSeeing_held hongoing' hsignal' hfree', held, hahead.pauseWait, and_true]
      exact .behind state hstart hfresh hsame
    | false =>
      -- from the first state the outlines go on alike
      have hentered : ∀ z, (s'.act (.step watch now)).outline z =
            (s.act (.step watch now)).outline z ∧
          s.replies (.step watch now) = s'.replies (.step watch now) := by
        intro z
        have hnext : ((s.outline z).enterStart z state).stepSeeing watch z =
            (s.outline z).stepSeeing watch z :=
          stepSeeing_enterStart hsimulated hstart hfresh hsignal hfree
        have hentered₀ : ((s.outline z).enterStart z state).isSimulating = true := hsimulated
        obtain ⟨hact, hreplies⟩ := act_of_outline_eq hentered₀ (hsame z) (.step watch z)
          (.step watch now) rfl rfl
        obtain ⟨hact₀, hreplies₀⟩ := act_outline hsimulated (a := .step watch now) rfl z
        refine ⟨?_, ?_⟩
        · rw [hact, hact₀]
          exact congrArg (fun o => o.1.outline z) hnext
        · rw [hreplies, ← hreplies₀]
          exact congrArg (fun o : Outcome Unit AnySupply => [o.2]) hnext.symm
      exact ⟨.abreast fun z => (hentered z).1, (hentered ⟨0, 0⟩).2⟩

theorem act_behind_between {a : Action AnySupply} (hstep : ∀ watch now, a ≠ .step watch now)
    (ha : a.endsSimulation = false) :
    Trails (s'.act a) (s.act a) ∧ s.replies a = s'.replies a := by
  have hreplies : s.replies a = s'.replies a := by
    cases a with
    | step watch now => exact absurd rfl (hstep watch now)
    | hold | send | simulate | stopSimulating | clearCount => rfl
  have hstep' : ∀ z watch now, a.atTime z ≠ .step watch now := by
    intro z watch now h
    cases a with
    | step watch now => exact hstep watch now rfl
    | hold | send | simulate | stopSimulating | clearCount => cases h
  refine ⟨.behind state ?_ ?_ fun z => ?_, hreplies⟩
  · rw [table_act]
    exact hstart
  · exact (place_act hstep).1.trans hfresh
  · have hentered : ((s.outline z).enterStart z state).isSimulating = true := hsimulated
    have hends : (a.atTime z).endsSimulation = false := (a.endsSimulation_atTime z).trans ha
    have hacted : (s.act a).outline z = ((s.outline z).act (a.atTime z)).outline z :=
      (act_outline hsimulated ha z).1
    rw [(act_of_outline_eq hentered (hsame z) (a.atTime z) a hends
      (a.atTime_atTime z z).symm).1,
      act_enterStart (hstep' z), outline_enterStart, hacted]

end Behind

/-! Whatever is done, a task trails on, and a failed step is left out. -/

theorem act (h : Trails s' s) (hsimulated : s.isSimulating = true) (hplaced : s'.task.Placed)
    (hplaced₀ : s.task.Placed) {a : Action AnySupply} (ha : a.endsSimulation = false) :
    (s'.fails a = true → Trails (s'.act a) s) ∧
      (s'.fails a = false → Trails (s'.act a) (s.act a) ∧ s.replies a = s'.replies a) := by
  cases h with
  | abreast same => exact act_abreast same hsimulated hplaced ha
  | behind state start fresh same =>
    have hcurrent := (Ahead.of_outline same).current
    refine ⟨fun hfails => ?_, fun _ => ?_⟩
    · rw [act_of_fails hfails hplaced (by rw [hcurrent]; nofun)]
      exact .behind state start fresh same
    · by_cases hstep : ∃ watch now, a = .step watch now
      · obtain ⟨watch, now, rfl⟩ := hstep
        exact step_behind start fresh same hsimulated hplaced₀ watch now
      · exact act_behind_between start fresh same hsimulated
          (fun watch now h => hstep ⟨watch, now, h⟩) ha
  | stopped stopped =>
    refine ⟨fun hfails => ?_, fun _ => ?_⟩
    · -- a task that has ended does not fail
      obtain ⟨watch, now, x, e, rfl, -, -, hfault⟩ := exists_of_fails hfails
      have hongoing := (stepSeeing_asks hfault).1
      cases (isComplete_of_phase stopped.phase').symm.trans hongoing
    · obtain ⟨hstopped, hreplies⟩ := stopped.act a
      exact ⟨.stopped hstopped, hreplies⟩

theorem course (h : Trails s' s) (hsimulated : s.isSimulating = true) (hplaced : s'.task.Placed)
    (hplaced₀ : s.task.Placed) {as : List (Action AnySupply)}
    (has : ∀ a ∈ as, a.endsSimulation = false) :
    Trails (s'.course as) (s.course (s'.unfailing as)) ∧
      s.results (s'.unfailing as) = s'.unfailingResults as := by
  induction as generalizing s' s with
  | nil => exact ⟨h, rfl⟩
  | cons a rest ih =>
    have ha := has a List.mem_cons_self
    have hrest : ∀ a ∈ rest, a.endsSimulation = false := fun a' ha' =>
      has a' (List.mem_cons_of_mem a ha')
    obtain ⟨hfailed, hdone⟩ := h.act hsimulated hplaced hplaced₀ ha
    simp only [unfailing, unfailingResults]
    split
    · next hfails =>
      exact ih (hfailed hfails) hsimulated (placed_act hplaced a) hplaced₀ hrest
    · next hfails =>
      obtain ⟨hact, hreplies⟩ := hdone (by simpa using hfails)
      obtain ⟨hcourse, hresults⟩ := ih hact (isSimulating_act hsimulated ha)
        (placed_act hplaced a) (placed_act hplaced₀ a) hrest
      exact ⟨hcourse, congrArg₂ (· ++ ·) hreplies hresults⟩

end Trails

/-- What a task has in common with the same task without its failed steps. -/
structure Recovers (s' s : Session σ τ) : Prop where
  taken : ∀ z, s'.task.recording.taken.map (Event.withTime z) =
    s.task.recording.taken.map (Event.withTime z)
  counts : s'.task.counts = s.task.counts
  exit : s'.task.exit = s.task.exit
  /-- Once the task without failed steps is in a state, nothing differs but times. -/
  agrees : s.task.current ≠ none → s.Agrees s'

omit [Supply τ] in
theorem Trails.recovers (h : Trails s' s) (hplaced : s.task.Placed) : Recovers s' s := by
  cases h with
  | abreast same =>
    refine ⟨fun z => ?_, (congrArg (·.task.counts) (same ⟨0, 0⟩) :),
      (congrArg (·.task.exit) (same ⟨0, 0⟩) :), fun _ => .of_outline same⟩
    rw [← taken_retime, ← taken_retime]
    exact congrArg (fun s => s.task.recording.taken) (same z)
  | behind state start fresh same =>
    have hahead := Ahead.of_outline same
    exact ⟨hahead.taken, hahead.counts, hahead.exit,
      fun hcurrent => absurd (hplaced.fresh fresh).1 hcurrent⟩
  | stopped stopped =>
    exact ⟨stopped.taken, stopped.counts, stopped.exit,
      fun hcurrent => absurd stopped.nowhere hcurrent⟩

/-! ## What failed steps leave behind -/

/-- A step that fails because a script gives out leaves nothing half done. In a state it does
nothing at all, and before the task has started it enters the first state and does nothing else. So
a course goes the same way without its failed steps: exactly the same way for a task that is in a
state, and for a simulated task that has yet to start the same but for times, once it is in a state;
a signal that comes before that ends both alike. The first state is entered once. -/
theorem script_failures_leave_nothing {s : Session σ AnySupply} (h : s.Reached) :
    (∀ watch now x e, s.supply = some x → x.isScript = true →
      (s.stepSeeing watch now).2 = .error (.supply e) →
        s.task.current ≠ none ∧ (s.stepSeeing watch now).1 = s ∨
        s.task.phase = .notStarted ∧ s.task.current = none ∧
          ∃ state, s.table.startState = .ok state ∧
            (s.stepSeeing watch now).1 = s.updateTask fun t =>
              { t with
                phase := .running
                current := some state
                contexts := t.contexts.insert state ((t.context state).visit now)
                timers := t.timers.engage (s.timerOf state) now t.createdAt
                recording := (t.recording.markStarted now).push (.state state true now) }) ∧
    (∀ as, s.task.current ≠ none → s.course as = s.course (s.unfailing as) ∧
      s.results (s.unfailing as) = s.unfailingResults as) ∧
    (∀ as, s.task.phase = .notStarted → s.isSimulating = true →
      (∀ a ∈ as, a.endsSimulation = false) →
        Recovers (s.course as) (s.course (s.unfailing as)) ∧
          s.results (s.unfailing as) = s.unfailingResults as) ∧
    ∀ as, (s.course as).task.recording.starts = s.task.recording.starts +
      if s.task.current = none ∧ (s.course as).task.current ≠ none then 1 else 0 := by
  have hplaced := h.placed
  refine ⟨fun watch now x e hsupply hscript hfault => ?_, fun as hcurrent =>
    course_unfailing hplaced hcurrent as, fun as hfresh hsimulated has => ?_,
    starts_course hplaced⟩
  · have hfails : s.fails (.step watch now) = true := by
      simp only [fails, hsupply, hfault, hscript]
    by_cases hfresh : s.task.phase = .notStarted
    · obtain ⟨_, _, state, heq, hstart, hact⟩ := act_of_fails_fresh hfails hfresh
      cases heq
      exact .inr ⟨hfresh, (hplaced.fresh hfresh).1, state, hstart, hact⟩
    · have hcurrent : s.task.current ≠ none :=
        hplaced.running (phase_eq_running (stepSeeing_asks hfault).1 hfresh)
      exact .inl ⟨hcurrent, act_of_fails hfails hplaced hcurrent⟩
  · have habreast : Trails s s := .abreast fun _ => rfl
    obtain ⟨hcourse, hresults⟩ := habreast.course hsimulated hplaced hplaced has
    exact ⟨hcourse.recovers (placed_course hplaced _), hresults⟩

/-- A task of `pollTable` that is simulated by an empty script. -/
def pollSilent : Setup Unit AnySupply where
  table := pollTable
  handler := .none
  memory := ()
  taskId := "poll"
  supply := some (.scripted (.ofGroups []))

/-- Two steps that fail, and two more once there is a script with values. -/
def failAndGoOn : List (Action AnySupply) :=
  [.step .steady ⟨0, 0⟩, .step .steady ⟨1, 0⟩,
    .simulate (.scripted (.ofGroups [("poll", ["again", "done"])])), .step .steady ⟨2, 0⟩,
    .step .steady ⟨3, 0⟩]

/-- A task whose first steps fail does the same as if they had not been made. -/
theorem script_failures_leave_nothing_pollSilent :
    (pollSilent.newSession ⟨0, 0⟩).results failAndGoOn =
        [.error (.supply (.unknownState "poll")), .error (.supply (.unknownState "poll")),
          .ok (.running 0), .ok (.completed ⟨.succeeded, none⟩ 0)] ∧
      (pollSilent.newSession ⟨0, 0⟩).unfailing failAndGoOn = failAndGoOn.drop 2 ∧
      ((pollSilent.newSession ⟨0, 0⟩).course (failAndGoOn.drop 2)).Agrees
        ((pollSilent.newSession ⟨0, 0⟩).course failAndGoOn) ∧
      ((pollSilent.newSession ⟨0, 0⟩).course failAndGoOn).task.recording.starts = 1 := by
  have hnew : pollSilent.stored = none := rfl
  have hbuild : (pollSilent.build ⟨0, 0⟩).2 = .ok (pollSilent.newSession ⟨0, 0⟩) := rfl
  have hreached : (pollSilent.newSession ⟨0, 0⟩).Reached := .built hnew hbuild
  obtain ⟨-, -, hcourse, hstarts⟩ := script_failures_leave_nothing hreached
  obtain ⟨hrecovers, -⟩ := hcourse failAndGoOn rfl rfl (by decide)
  have hunfailing : (pollSilent.newSession ⟨0, 0⟩).unfailing failAndGoOn = failAndGoOn.drop 2 := rfl
  rw [hunfailing] at hrecovers
  exact ⟨rfl, hunfailing, hrecovers.agrees (by decide), hstarts failAndGoOn⟩

end Session
end TaskTable
