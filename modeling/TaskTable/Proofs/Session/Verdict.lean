import TaskTable.Proofs.Session.Delivery
import TaskTable.Proofs.Session.Ledger
import TaskTable.Proofs.Session.Safety

/-!
# How a task ends

The exit of a task is decided by the first of its moves that leads to `failure`, as long as no
handler sets it and no signal ends the task: with such a move the task has failed, for the reason of
that move; without one it succeeds in `finish`. `Judged` is what holds of a task between two steps,
and `failure_is_kept` says what follows for a course.
-/

namespace TaskTable

/-- Whether a handler left the exit of the task as it was. -/
def Handler.Call.keepsExit : Handler.Call → Bool
  | entered _ given left _ | selected _ _ given left _ => left.exit = given.exit
  | updated .. => true

namespace Session

variable {σ τ : Type}

/-! ## The first move to `failure` -/

/-- Whether a move leads to `failure`. -/
def Move.fails (m : Move) : Bool :=
  m.transition.target = Names.failure

/-- The exit of a task that has failed by a move. -/
def Move.verdict (m : Move) : Exit :=
  ⟨.failed, m.reason.map Trouble.message⟩

/-- The exit of a task that has not been stuck, by its phase and its first move to `failure`. -/
def verdict (first : Option Move) : Phase → Option Exit
  | .notStarted | .running => first.map Move.verdict
  | .finished => some ((first.map Move.verdict).getD ⟨.succeeded, none⟩)
  | .terminated => some ((first.map Move.verdict).getD ⟨.terminated, none⟩)

theorem verdict_of_ongoing (first : Option Move) {phase : Phase} (h : phase.isTerminal = false) :
    verdict first phase = first.map Move.verdict := by
  cases phase with
  | notStarted | running => rfl
  | finished | terminated => cases h

/-- A move to `failure` always has a reason. -/
theorem Move.exists_reason {m : Move} (h : m.fails = true) : ∃ cause, m.reason = some cause := by
  unfold reason
  cases m.cause with
  | some cause => exact ⟨cause, rfl⟩
  | none => exact ⟨_, if_pos (by simpa [fails] using h)⟩

/-- A move sets the exit if it leads to `failure` and none is set. -/
theorem exit_move (s : Session σ τ) (now : Instant) (m : Move) :
    (s.move now m).task.exit =
      if m.fails then some (s.task.exit.getD m.verdict) else s.task.exit := by
  have hdepart : ((s.depart now m).arrive now m.transition.target m.transition.exec).task.exit =
      s.task.exit := by
    unfold depart
    split <;> rfl
  unfold move Move.fails
  by_cases hfails : m.transition.target = Names.failure
  · obtain ⟨cause, hcause⟩ := Move.exists_reason (m := m) (by simpa [Move.fails] using hfails)
    simp only [hfails, if_true, decide_true]
    rw [← hdepart, hfails, Move.verdict, hcause]
    rfl
  · simp only [hfails, if_false, decide_false, Bool.false_eq_true]
    exact hdepart

/-- What holds of a task between two steps, given its first move to `failure`. Without one, the task
is not in `failure` unless it can leave it. -/
structure Judged (first : Option Move) (s : Session σ τ) : Prop where
  fails : ∀ m, first = some m → m.fails = true
  exit : s.task.exit = verdict first s.task.phase
  block : first = none → s.task.current = some Names.failure →
    s.table.hasBlock Names.failure = true

theorem Judged.of_task {first : Option Move} {s s' : Session σ τ} (h : Judged first s)
    (htable : s'.table = s.table) (hexit : s'.task.exit = s.task.exit)
    (hphase : s'.task.phase = s.task.phase) (hcurrent : s'.task.current = s.task.current) :
    Judged first s' :=
  ⟨h.fails, by rw [hexit, hphase, h.exit], by rw [hcurrent, htable]; exact h.block⟩

theorem Judged.note {first : Option Move} {s : Session σ τ} (h : Judged first s) (t : Trouble) :
    Judged first (s.note t) :=
  ⟨h.fails, h.exit, h.block⟩

theorem Judged.complete {first : Option Move} {s : Session σ τ} (h : Judged first s)
    (hrunning : s.task.phase = .running) (now : Instant) {phase : Phase} {exit : Exit}
    (hverdict : verdict first phase = some ((first.map Move.verdict).getD exit)) :
    Judged first (s.complete now phase exit) := by
  refine ⟨h.fails, ?_, h.block⟩
  show some (s.task.exit.getD exit) = verdict first phase
  rw [h.exit, hrunning, hverdict]
  rfl

/-! ## Handlers that leave the exit alone -/

section Logged

variable {s s' s'' : LoggedSession σ τ} {h : Handler σ} {first : Option Move}

/-- Whether all calls so far left the exit as it was. -/
def KeepsExit (s : LoggedSession σ τ) : Prop :=
  ∀ c ∈ s.memory.log, c.keepsExit = true

theorem KeepsExit.of_prefix (hkept : s'.KeepsExit) (hlog : s.memory.log <+: s'.memory.log) :
    s.KeepsExit :=
  fun c hc => hkept c (hlog.subset hc)

/-- A task that is judged unless a handler has set its exit. -/
def Fair (first : Option Move) (s : LoggedSession σ τ) : Prop :=
  s.KeepsExit → Judged first s

theorem Fair.note (hfair : Fair first s) (t : Trouble) : Fair first (s.note t) :=
  fun hkept => (hfair hkept).note t

/-- A handler that was called and kept the exit leaves a judged task judged. -/
theorem Fair.after {d : Deeds} (hfair : Fair first s) (hdoes : Does s s' d)
    (htable : s'.table = s.table) (htrace : s'.trace = s.trace)
    (hexit : s'.KeepsExit → s'.task.exit = s.task.exit) : Fair first s' := by
  intro hkept
  have hjudged := hfair (hkept.of_prefix ⟨d.calls, hdoes.calls.symm⟩)
  exact hjudged.of_task htable (hexit hkept) (phase_of_trace htrace) (current_of_trace htrace)

theorem exit_of_enterLive {state : String} {cause : Option String} {trouble : Option Trouble}
    (hlogged : s.handler = h.logged) (hentered : s.enterLive state cause = (s', trouble))
    (hkept : s'.KeepsExit) : s'.task.exit = s.task.exit := by
  have henters := enterLive_entersLogged hlogged state cause
  rw [hentered] at henters
  cases henters with
  | called memory left answer =>
    have hcall := hkept (.entered (s.visit state cause) (s.desk state) left answer)
      (List.mem_append_right _ List.mem_cons_self)
    exact of_decide_eq_true hcall
  | uncalled => rfl

theorem Fair.enterLive (hfair : Fair first s) (hlogged : s.handler = h.logged) {state : String}
    {cause : Option String} {trouble : Option Trouble}
    (hentered : s.enterLive state cause = (s', trouble)) : Fair first s' := by
  obtain ⟨d, -, hdoes⟩ := enterLive_does hlogged state cause
  have htable := s.table_enterLive state cause
  have htrace := s.trace_enterLive state cause
  rw [hentered] at hdoes htable htrace
  exact hfair.after hdoes htable htrace (exit_of_enterLive hlogged hentered)

/-- A task that runs, with a handler that logs its calls, and is judged unless one of them has set
its exit. -/
structure Stands (h : Handler σ) (first : Option Move) (s : LoggedSession σ τ) : Prop where
  handler : s.handler = h.logged
  running : s.task.phase = .running
  fair : Fair first s

theorem Stands.note (hs : Stands h first s) (t : Trouble) : Stands h first (s.note t) :=
  ⟨hs.handler, hs.running, hs.fair.note t⟩

theorem Stands.askValue [Supply τ] (hs : Stands h first s) {state method : String}
    {answer : Except SupplyError (Except Trouble String)}
    (hasked : s.askValue state method = (s', answer)) : Stands h first s' := by
  obtain ⟨htrace, htable, -⟩ := (s.askValue_asks state method).keeps
  obtain ⟨d, -, hdoes⟩ := askValue_does hs.handler state method
  have hasks := askValue_asksLogged hs.handler state method
  rw [hasked] at htrace htable hdoes hasks
  refine ⟨hdoes.handler.trans hs.handler, (phase_of_trace htrace).trans hs.running,
    hs.fair.after hdoes htable htrace fun hkept => ?_⟩
  cases hasks with
  | called memory left answer =>
    have hcall := hkept (.selected method (s.visit state none) (s.desk state) left answer)
      (List.mem_append_right _ List.mem_cons_self)
    exact of_decide_eq_true hcall
  | standIn | supplied => rfl

/-- Choosing a move does no more than note a problem. -/
theorem Stands.choose (hs : Stands h first s) {watch : Watch} {b : Block} {state : String}
    {answer : Except Trouble String} {m : Option Move}
    (hchosen : s.choose watch b state answer = (s', m)) : Stands h first s' := by
  have hnotes := choose_notes watch s b state answer
  rw [hchosen] at hnotes
  rcases hnotes with rfl | ⟨trouble, rfl⟩
  · exact hs
  · exact hs.note trouble

/-! ## Moves -/

/-- A move to `failure` decides the exit if it is the first. -/
theorem Judged.move (hjudged : Judged first s) (hrunning : s.task.phase = .running)
    (now : Instant) (m : Move) : Judged (first.or ([m].find? Move.fails)) (s.move now m) := by
  have htrace := s.trace_move now m
  refine ⟨fun m' hm' => ?_, ?_, fun hnone hfailure => ?_⟩
  · rcases Option.or_eq_some_iff.1 hm' with hm' | ⟨-, hm'⟩
    · exact hjudged.fails m' hm'
    · exact List.find?_some hm'
  · rw [exit_move, hjudged.exit, show (s.move now m).task.phase = .running from
      (congrArg Trace.phase htrace).trans hrunning, hrunning]
    cases hfails : m.fails <;> cases first <;> simp [verdict, hfails]
  · have hcurrent : (s.move now m).task.current = some m.transition.target :=
      congrArg Trace.current htrace
    have hfails : m.fails = true :=
      decide_eq_true (Option.some.inj (hcurrent.symm.trans hfailure))
    simp [hfails] at hnone

theorem Stands.enterTarget (hs : Stands h first s) {now : Instant} {m : Move}
    {trouble : Option Trouble} (hentered : s.enterTarget now m = (s', trouble)) :
    Stands h (first.or ([m].find? Move.fails)) s' := by
  have hphase := (s.phase_enterTarget now m).trans hs.running
  have hmoved := s.does_move now m
  have hfair : Fair (first.or ([m].find? Move.fails)) (s.move now m) := by
    intro hkept
    have hjudged := hs.fair (KeepsExit.of_prefix hkept ⟨[], hmoved.calls.symm⟩)
    exact hjudged.move hs.running now m
  have hlogged := hmoved.handler.trans hs.handler
  rw [hentered] at hphase
  unfold Session.enterTarget at hentered
  split at hentered
  · have hhandler := (s.move now m).handler_enterLive m.transition.target
      (m.reason.map Trouble.message)
    rw [hentered] at hhandler
    exact ⟨hhandler.trans hlogged, hphase, hfair.enterLive hlogged hentered⟩
  · cases hentered
    exact ⟨hlogged, hphase, hfair⟩

/-- After a trail a task is judged by the moves on it. -/
theorem Trail.fair {now : Instant} {m : Move} {ms : List Move}
    {r : Stepped (Logged σ Handler.Call) (Logged τ Question)} (htrail : Trail now s m ms r)
    (hs : Stands h first s) : Fair (first.or (ms.find? Move.fails)) r.1 := by
  induction htrail generalizing first with
  | arrived entered => exact (hs.enterTarget entered).fair
  | finished entered =>
    have hentered := hs.enterTarget entered
    exact fun hkept => (hentered.fair hkept).complete hentered.running now rfl
  | passed entered => exact (hs.enterTarget entered).fair.note _
  | @erred _ _ m trouble _ ms _ entered _ _ ih =>
    rw [← List.singleton_append, List.find?_append, ← Option.or_assoc]
    exact ih ((hs.enterTarget entered).note trouble)

/-! ## Steps -/

/-- What holds of a task along a course, given its first move to `failure` and the results of its
steps so far: it is judged by that move, or stuck in `failure`. -/
inductive Ruled (first : Option Move) (rs : List (Except Fault StepResult))
    (s : Session σ τ) : Prop
  | judged (judged : Judged first s)
      (plain : ∀ state cause, .error (.unrecoverable state cause) ∉ rs)
  | stuck (m : Move) (cause : Trouble) (blamed : first = some m) (reason : m.reason = some cause)
      (complete : s.isComplete = true)
      (exit : s.task.exit = some ⟨.systemError, some cause.message⟩)
      (result : .error (.unrecoverable Names.failure cause.message) ∈ rs)

theorem Judged.ruled {s : Session σ τ} (h : Judged first s) {r : Except Fault StepResult}
    (hplain : ∀ state cause, r ≠ .error (.unrecoverable state cause)) : Ruled first [r] s :=
  .judged h fun state cause hmem => hplain state cause (List.mem_singleton.1 hmem).symm

/-- After steps none of which was stuck, a task is ruled as it is by its last step. -/
theorem Ruled.after {s : Session σ τ} {r : Except Fault StepResult} (h : Ruled first [r] s)
    {rs : List (Except Fault StepResult)}
    (hplain : ∀ state cause, .error (.unrecoverable state cause) ∉ rs) :
    Ruled first (rs ++ [r]) s := by
  cases h with
  | judged judged plain =>
    refine .judged judged fun state cause hmem => ?_
    exact (List.mem_append.1 hmem).elim (hplain state cause) (plain state cause)
  | stuck m cause blamed reason complete exit result =>
    exact .stuck m cause blamed reason complete exit (List.mem_append_right _ result)

/-- In a built-in state without a block the task ends; only in `failure` it is stuck. -/
theorem goOnWithoutBlock_ruled {s : Session σ τ} (hrunning : s.task.phase = .running)
    (hjudged : Judged first s) {state : String} (hcurrent : s.task.current = some state)
    (hmissing : s.table.block? state = none) (hbuiltin : Names.isBuiltin state = true)
    (now : Instant) (e : TableError) :
    Ruled first [(s.goOnWithoutBlock now state e).2] (s.goOnWithoutBlock now state e).1 := by
  unfold goOnWithoutBlock
  split
  · exact (hjudged.complete hrunning now rfl).ruled nofun
  · split
    · exact (hjudged.complete hrunning now rfl).ruled nofun
    · next hfinish hterminate =>
      have hfailure : state = Names.failure := by
        simpa [Names.isBuiltin, Names.builtinStates, hfinish, hterminate] using hbuiltin
      subst hfailure
      rw [if_pos rfl]
      cases hfirst : first with
      | none =>
        have hblock := hjudged.block hfirst hcurrent
        rw [Table.hasBlock, hmissing] at hblock
        cases hblock
      | some m =>
        obtain ⟨cause, hcause⟩ := Move.exists_reason (hjudged.fails m hfirst)
        have hmessage : s.task.exit.bind (·.message) = some cause.message := by
          rw [hjudged.exit, hrunning, hfirst]
          simp [verdict, Move.verdict, hcause]
        rw [hmessage]
        exact .stuck m cause rfl hcause rfl rfl (List.mem_singleton.2 rfl)

section Asking

variable [Supply τ]

theorem GoesOn.ruled {watch : Watch} {now : Instant} {state : String} {i : Itinerary}
    {o : Outcome (Logged σ Handler.Call) (Logged τ Question)}
    (hgoes : GoesOn watch now s state i o) (hs : Stands h first s)
    (hcurrent : s.task.current = some state) (hkept : o.1.KeepsExit) :
    Ruled (first.or (i.moves.find? Move.fails)) [o.2] o.1 := by
  cases hgoes with
  | waits =>
    rw [List.find?_nil, Option.or_none]
    exact (hs.fair hkept).ruled nofun
  | gaveOut asked =>
    rw [List.find?_nil, Option.or_none]
    exact ((hs.askValue asked).fair hkept).ruled nofun
  | heldBack asked chosen =>
    rw [List.find?_nil, Option.or_none]
    exact (((hs.askValue asked).choose chosen).fair hkept).ruled nofun
  | moved asked chosen trail =>
    exact (trail.fair ((hs.askValue asked).choose chosen) hkept).ruled nofun
  | halted missing builtin =>
    rw [List.find?_nil, Option.or_none]
    -- ending the task calls no handler
    have hmemory : (s.goOnWithoutBlock now state (.missingBlock state)).1.memory = s.memory := by
      obtain ⟨set, exit, phase, -, heq⟩ :=
        goOnWithoutBlock_builtin now s (.missingBlock state) builtin
      rw [heq]
      rfl
    have hjudged := hs.fair fun c hc => hkept c (hmemory ▸ hc)
    exact goOnWithoutBlock_ruled hs.running hjudged hcurrent missing builtin now _
  | lost trail => exact (trail.fair (hs.note _) hkept).ruled nofun

omit [Supply τ] in
/-- A task that starts stands in its first state, which has a block. -/
theorem enterStart_stands (hlogged : s.handler = h.logged) (hfair : Fair first s)
    (hongoing : s.isComplete = false) {state : String} (hblock : s.table.hasBlock state = true)
    {now : Instant} {trouble : Option Trouble}
    (hentered : (s.enterStart now state).enterLive state none = (s', trouble)) :
    Stands h first s' ∧ s'.task.current = some state := by
  have htrace := (s.enterStart now state).trace_enterLive state none
  have hhandler := (s.enterStart now state).handler_enterLive state none
  rw [hentered] at htrace hhandler
  have hstarted : Fair first (s.enterStart now state) := by
    intro hkept
    have hjudged := hfair hkept
    refine ⟨hjudged.fails, ?_, fun _ hfailure => ?_⟩
    · -- before it started, the task had the same exit
      show s.task.exit = verdict first .running
      rw [hjudged.exit, verdict_of_ongoing first hongoing]
      rfl
    · have hstate : state = Names.failure := Option.some.inj hfailure
      exact hstate ▸ hblock
  exact ⟨⟨hhandler.trans hlogged,
      (phase_of_trace htrace).trans (congrArg Trace.phase (s.trace_enterStart now state)),
      hstarted.enterLive hlogged hentered⟩,
    (current_of_trace htrace).trans (congrArg Trace.current (s.trace_enterStart now state))⟩

/-- A step that meets no signal leaves a judged task judged by its moves too, or stuck. -/
theorem Turn.ruled {watch : Watch} {now : Instant} {i : Itinerary}
    {o : Outcome (Logged σ Handler.Call) (Logged τ Question)} (hturn : Turn watch now s i o)
    (hlogged : s.handler = h.logged)
    (hstart : ∀ state, s.table.startState = .ok state → s.table.hasBlock state = true)
    (hunsignalled : s.isComplete = true ∨ s.signal? = none) (hfair : Fair first s)
    (hkept : o.1.KeepsExit) : Ruled (first.or (i.moves.find? Move.fails)) [o.2] o.1 := by
  cases hturn with
  | ended | held | unstartable =>
    rw [List.find?_nil, Option.or_none]
    exact (hfair hkept).ruled nofun
  | signalled x ongoing pending => simp [ongoing, pending] at hunsignalled
  | startPassed ongoing start entered =>
    obtain ⟨hentered, -⟩ := enterStart_stands hlogged hfair ongoing (hstart _ start) entered
    rw [List.find?_nil, Option.or_none]
    exact ((hentered.note _).fair hkept).ruled nofun
  | startErred ongoing start entered trail =>
    obtain ⟨hentered, -⟩ := enterStart_stands hlogged hfair ongoing (hstart _ start) entered
    exact (trail.fair (hentered.note _) hkept).ruled nofun
  | started ongoing start entered goesOn =>
    obtain ⟨hentered, hcurrent⟩ :=
      enterStart_stands hlogged hfair ongoing (hstart _ start) entered
    exact goesOn.ruled hentered hcurrent hkept
  | goesOn running current goesOn =>
    exact goesOn.ruled ⟨hlogged, running, hfair⟩ current hkept

/-! ## Courses -/

section Ruled

variable {s : Session σ τ} {rs : List (Except Fault StepResult)}

omit [Supply τ] in
/-- Without a move to `failure` a task is not stuck. -/
theorem Ruled.of_none (h : Ruled none rs s) :
    s.task.exit = verdict none s.task.phase ∧
      ∀ state text, .error (.unrecoverable state text) ∉ rs := by
  cases h with
  | judged judged plain => exact ⟨judged.exit, plain⟩
  | stuck _ _ blamed => cases blamed

omit [Supply τ] in
/-- With a move to `failure` a task has failed for the reason of the first one, in every phase. -/
theorem Ruled.of_some {m : Move} (h : Ruled (some m) rs s) :
    ∃ cause, m.reason = some cause ∧
      (s.task.exit = some ⟨.failed, some cause.message⟩ ∧
          (∀ state text, .error (.unrecoverable state text) ∉ rs) ∨
        s.task.exit = some ⟨.systemError, some cause.message⟩ ∧
          .error (.unrecoverable Names.failure cause.message) ∈ rs) := by
  cases h with
  | judged judged plain =>
    obtain ⟨cause, hcause⟩ := Move.exists_reason (judged.fails m rfl)
    refine ⟨cause, hcause, .inl ⟨?_, plain⟩⟩
    rw [judged.exit]
    cases s.task.phase <;> simp [verdict, Move.verdict, hcause]
  | stuck m' cause blamed reason complete exit result =>
    cases blamed
    exact ⟨cause, reason, .inr ⟨exit, result⟩⟩

omit [Supply τ] in
theorem Ruled.eq_none_of_succeeded (h : Ruled first rs s) {exit : Exit}
    (hexit : s.task.exit = some exit) (hstatus : exit.status = .succeeded) : first = none := by
  cases hfirst : first with
  | none => rfl
  | some m =>
    subst hfirst
    obtain ⟨cause, -, ⟨hfailed, -⟩ | ⟨hstuck, -⟩⟩ := h.of_some
    · cases hexit.symm.trans hfailed
      cases hstatus
    · cases hexit.symm.trans hstuck
      cases hstatus

end Ruled

/-- What is done between two steps keeps all of the task but its counts. -/
theorem task_act {s : Session σ τ} {a : Action τ} (hstep : ∀ watch now, a ≠ .step watch now) :
    ∃ counts, (s.act a).task = { s.task with counts } := by
  cases a with
  | step watch now => exact absurd rfl (hstep watch now)
  | hold | send | simulate | stopSimulating => exact ⟨s.task.counts, rfl⟩
  | clearCount state value =>
    rcases s.clearCount_act state value with heq | ⟨line, heq⟩ <;> rw [heq]
    · exact ⟨s.task.counts, rfl⟩
    · exact ⟨s.task.counts.erase line, rfl⟩

/-- An action that is not a step leaves a task ruled as it was. -/
theorem Ruled.between {s : Session σ τ} {rs : List (Except Fault StepResult)}
    (h : Ruled first rs s) {a : Action τ} (hstep : ∀ watch now, a ≠ .step watch now) :
    Ruled first rs (s.act a) := by
  obtain ⟨counts, htask⟩ := task_act (s := s) hstep
  cases h with
  | judged judged plain =>
    refine .judged (judged.of_task (s.table_act a) ?_ ?_ ?_) plain <;> rw [htask]
  | stuck m cause blamed reason complete exit result =>
    refine .stuck m cause blamed reason ?_ ?_ result
    · unfold isComplete at complete ⊢
      rwa [htask]
    · rwa [htask]

theorem stepSeeing_ruled (hlogged : s.handler = h.logged)
    (hstart : ∀ state, s.table.startState = .ok state → s.table.hasBlock state = true)
    {rs : List (Except Fault StepResult)} (hruled : Ruled first rs s) (watch : Watch)
    (now : Instant) (hconsumed : s.consumed (.step watch now) = [])
    (hkept : (s.stepSeeing watch now).1.KeepsExit) :
    Ruled (first.or ((s.itinerary watch now).moves.find? Move.fails))
      (rs ++ [(s.stepSeeing watch now).2]) (s.stepSeeing watch now).1 := by
  cases hruled with
  | judged judged plain =>
    have hunsignalled : s.isComplete = true ∨ s.signal? = none := by
      replace hconsumed : (if s.isComplete then [] else s.signal?.toList) = [] := hconsumed
      split at hconsumed
      · next hcomplete => exact .inl hcomplete
      · exact .inr (Option.toList_eq_nil_iff.1 hconsumed)
    exact ((s.stepSeeing_turn watch now).ruled hlogged hstart hunsignalled (fun _ => judged)
      hkept).after plain
  | stuck m cause blamed reason complete exit result =>
    -- the task has ended, so the step does nothing
    have hmoves : s.itinerary watch now = {} := if_pos complete
    rw [hmoves, List.find?_nil, Option.or_none, stepSeeing_of_isComplete complete]
    exact .stuck m cause blamed reason complete exit (List.mem_append_left _ result)

theorem Ruled.act (hlogged : s.handler = h.logged)
    (hstart : ∀ state, s.table.startState = .ok state → s.table.hasBlock state = true)
    {rs : List (Except Fault StepResult)} (hruled : Ruled first rs s)
    {a : Action (Logged τ Question)} (hconsumed : s.consumed a = [])
    (hkept : (s.act a).KeepsExit) :
    Ruled (first.or (((s.ways a).flatMap (·.moves)).find? Move.fails)) (rs ++ s.replies a)
      (s.act a) := by
  cases a with
  | step watch now =>
    show Ruled _ _ (s.stepSeeing watch now).1
    have hstepped := stepSeeing_ruled hlogged hstart hruled watch now hconsumed hkept
    simpa [ways, replies] using hstepped
  | hold | send | simulate | stopSimulating | clearCount =>
    simpa [ways, replies] using hruled.between fun _ _ heq => by cases heq

theorem log_act (hlogged : s.handler = h.logged) (a : Action (Logged τ Question)) :
    s.memory.log <+: (s.act a).memory.log ∧ (s.act a).handler = s.handler := by
  cases a with
  | step watch now =>
    obtain ⟨d, -, -, -, hdoes⟩ := stepSeeing_does hlogged watch now
    rw [received_eq] at hdoes
    exact ⟨⟨d.calls, hdoes.calls.symm⟩, hdoes.handler⟩
  | hold | send | simulate | stopSimulating => exact ⟨List.prefix_rfl, rfl⟩
  | clearCount state value =>
    rcases s.clearCount_act state value with heq | ⟨line, heq⟩ <;> rw [heq] <;>
      exact ⟨List.prefix_rfl, rfl⟩

theorem course_ruled (hlogged : s.handler = h.logged)
    (hstart : ∀ state, s.table.startState = .ok state → s.table.hasBlock state = true)
    {rs : List (Except Fault StepResult)} (hruled : s.KeepsExit → Ruled first rs s)
    {as : List (Action (Logged τ Question))} (hunsignalled : s.consumedAlong as = [])
    (hkept : (s.course as).KeepsExit) :
    Ruled (first.or ((s.movesAlong as).find? Move.fails)) (rs ++ s.results as) (s.course as) := by
  induction as generalizing s first rs with
  | nil =>
    rw [show s.movesAlong [] = [] from rfl, List.find?_nil, Option.or_none, results,
      List.append_nil]
    exact hruled hkept
  | cons a rest ih =>
    obtain ⟨hconsumed, hrest⟩ := List.append_eq_nil_iff.1 hunsignalled
    obtain ⟨hlog, hhandler⟩ := log_act hlogged a
    rw [movesAlong_cons, List.find?_append, ← Option.or_assoc, results, ← List.append_assoc]
    refine ih (hhandler.trans hlogged) (by rwa [table_act]) (fun hkept => ?_) hrest hkept
    exact (hruled (KeepsExit.of_prefix hkept hlog)).act hlogged hstart hconsumed hkept

end Asking

end Logged

/-! ## Entering `finish` -/

/-- Whether the next move is made because the handler of `finish` failed. -/
def FinishFails (ms : List Move) : Prop :=
  ∃ m rest message, ms = m :: rest ∧ m.cause = some (.stateFailed Names.finish message)

/-- Only its handler can be a problem in `finish`. -/
theorem trouble_of_finish {now : Instant} {s s' : Session σ τ} {m : Move} {trouble : Trouble}
    (hentered : s.enterTarget now m = (s', some trouble))
    (htarget : m.transition.target = Names.finish) :
    ∃ message, trouble = .stateFailed Names.finish message := by
  unfold enterTarget at hentered
  split at hentered
  · have henters := (s.move now m).enterLive_enters m.transition.target
      (m.reason.map Trouble.message)
    rw [hentered, htarget] at henters
    cases henters with
    | failed memory desk message => exact ⟨message, rfl⟩
    | missing live missing needed => exact absurd needed (by decide)
  · cases hentered

/-- A move to `finish` is the last of a trail and ends the task, unless the handler of `finish`
fails. -/
theorem Trail.finish {now : Instant} {s : Session σ τ} {m m' : Move} {ms before after : List Move}
    {r : Stepped σ τ} (htrail : Trail now s m ms r) (hms : ms = before ++ m' :: after)
    (htarget : m'.transition.target = Names.finish) :
    FinishFails after ∨ after = [] ∧ r.1.task.phase = .finished := by
  have hone : ∀ {m : Move} {before}, [m] = before ++ m' :: after → m' = m ∧ after = [] := by
    intro m before hm
    rcases List.cons_eq_append_iff.1 hm with ⟨-, hm⟩ | ⟨_, -, hm⟩
    · cases hm
      exact ⟨rfl, rfl⟩
    · simp at hm
  induction htrail generalizing before with
  | arrived _ onward =>
    obtain ⟨rfl, -⟩ := hone hms
    exact absurd htarget onward
  | finished => exact .inr ⟨(hone hms).2, rfl⟩
  | passed _ target =>
    obtain ⟨rfl, -⟩ := hone hms
    exact absurd (htarget.symm.trans target) (by decide)
  | @erred _ _ m trouble route ms r entered _ rest ih =>
    rcases List.cons_eq_append_iff.1 hms with ⟨-, hm⟩ | ⟨before', -, hm⟩
    · -- the move that comes next was made for the problem in `finish`
      cases hm
      obtain ⟨message, rfl⟩ := trouble_of_finish entered htarget
      cases rest <;> exact .inl ⟨_, _, message, rfl, rfl⟩
    · exact ih hm

section Acting

variable [Supply τ]

/-- A task that has ended makes no more moves. -/
theorem course_of_isComplete {s : Session σ τ} (h : s.isComplete = true) (as : List (Action τ)) :
    s.movesAlong as = [] ∧ (s.course as).task.phase = s.task.phase := by
  induction as generalizing s with
  | nil => exact ⟨rfl, rfl⟩
  | cons a rest ih =>
    obtain ⟨hmoves, hphase⟩ := ih (isComplete_act h a)
    rw [movesAlong_cons, hmoves, List.append_nil]
    cases a with
    | step watch now =>
      have hstays : s.act (.step watch now) = s := stepSeeing_of_isComplete h watch now
      have hnone : s.itinerary watch now = {} := if_pos h
      refine ⟨by simp [ways, hnone], hphase.trans ?_⟩
      rw [hstays]
    | hold | send | simulate | stopSimulating | clearCount =>
      exact ⟨rfl, hphase.trans (place_act fun _ _ heq => by cases heq).1⟩

/-- A move to `finish` is the last of a course and ends the task, unless the handler of `finish`
fails. -/
theorem course_finish (s : Session σ τ) (as : List (Action τ)) {before after : List Move} {m : Move}
    (hmoves : s.movesAlong as = before ++ m :: after)
    (htarget : m.transition.target = Names.finish) :
    FinishFails after ∨ after = [] ∧ (s.course as).task.phase = .finished := by
  induction as generalizing s before with
  | nil => simp [movesAlong, itineraries] at hmoves
  | cons a rest ih =>
    rw [movesAlong_cons] at hmoves
    rcases List.append_eq_append_iff.1 hmoves with ⟨between, -, hrest⟩ | ⟨between, hfirst, hrest⟩
    · exact ih _ hrest
    · rcases List.cons_eq_append_iff.1 hrest with ⟨-, hrest⟩ | ⟨after', rfl, rfl⟩
      · rw [← List.nil_append (m :: after)] at hrest
        exact ih _ hrest
      · -- the move is one of the first action, which is a step
        cases a with
        | step watch now =>
          have hway : (s.itinerary watch now).moves = before ++ m :: after' := by
            simpa [ways] using hfirst
          rcases (s.stepSeeing_turn watch now).exists_trail with hnone | ⟨s', m', r, htrail, heq⟩
          · simp [hnone] at hway
          · rcases htrail.finish hway htarget with hfails | ⟨rfl, hphase⟩
            · obtain ⟨next, others, message, rfl, hcause⟩ := hfails
              exact .inl ⟨next, _, message, rfl, hcause⟩
            · have hfinished : (s.act (.step watch now)).task.phase = .finished := by
                show (s.stepSeeing watch now).1.task.phase = _
                rw [heq]
                exact hphase
              have hcomplete : (s.act (.step watch now)).isComplete = true := by
                unfold isComplete
                rw [hfinished]
                rfl
              obtain ⟨hnone, hstays⟩ := course_of_isComplete hcomplete rest
              exact .inr ⟨by simp [hnone], hstays.trans hfinished⟩
        | hold | send | simulate | stopSimulating | clearCount => simp [ways] at hfirst

/-! ## Whole courses -/

/-- The same signals are consumed with logs as without. -/
theorem consumedAlong_logged (s : Session σ τ) (as : List (Action τ)) :
    s.logged.consumedAlong (as.map Action.logged) = s.consumedAlong as := by
  suffices hsame : ∀ {handler : Handler σ} {id : String} {l : LoggedSession σ τ}
      {s : Session σ τ}, Alike (.unlogged handler id) l s →
        l.consumedAlong (as.map Action.logged) = s.consumedAlong as from hsame s.alike_logged
  induction as with
  | nil => exact fun _ => rfl
  | cons a rest ih =>
    intro handler id l s halike
    have hfirst : l.consumed a.logged = s.consumed a := by
      rw [← halike.unlogged_eq]
      cases a <;> rfl
    exact congrArg₂ (· ++ ·) hfirst (ih (halike.act (actsAlike_logged handler id a)).1)

/-- A course of a new task is ruled by its first move to `failure`. -/
theorem ruled_of_new {source : String} (u : Setup σ τ)
    (hcompile : Table.compile source = .ok u.table) (now : Instant) {as : List (Action τ)}
    (hunsignalled : (u.newSession now).consumedAlong as = [])
    (hkept : KeepsExit ((u.newSession now).logged.course (as.map Action.logged))) :
    Ruled (((u.newSession now).logged.movesAlong (as.map Action.logged)).find? Move.fails)
      ((u.newSession now).results as)
      ((u.newSession now).logged.course (as.map Action.logged)) := by
  have hwf : u.table.WellFormed := Table.wellFormed_of_compile hcompile
  have hfirst : Ruled none [] (u.newSession now).logged :=
    .judged ⟨nofun, rfl, fun _ h => by cases h⟩ (by simp)
  have hruled := course_ruled (h := u.handler) rfl (fun _ => hwf.hasBlock_of_startState)
    (fun _ => hfirst) ((consumedAlong_logged _ as).trans hunsignalled) hkept
  rwa [Option.none_or, List.nil_append, ((u.newSession now).unlogged_course as).2] at hruled

/-- A new task of a compiled table fails for good with its first move to `failure`, along any course
on which no signal ends it and no handler sets its exit. Without such a move it has no exit while it
runs, and has succeeded or been terminated when it has ended. From such a move on it has failed, for
the reason of the first one, whatever comes later; if it is stuck in `failure`, the reason stays and
the status says so. It has succeeded only if no move led to `failure`. A move to `finish` ends the
task there and then, well if no move led to `failure` before, unless the handler of `finish`
fails. -/
theorem failure_is_kept {source : String} {t : Table} (hcompile : Table.compile source = .ok t)
    {u : Setup σ τ} (htable : u.table = t) (hnew : u.stored = none) {now : Instant}
    {s : Session σ τ} (hbuild : (u.build now).2 = .ok s) {as : List (Action τ)}
    (hunsignalled : s.consumedAlong as = [])
    (hkept : ∀ c ∈ (s.logged.course (as.map Action.logged)).memory.log, c.keepsExit = true) :
    let moves := s.logged.movesAlong (as.map Action.logged)
    (s.logged.course (as.map Action.logged)).unlogged s.handler = s.course as ∧
    ((∀ m ∈ moves, m.transition.target ≠ Names.failure) →
      ((s.course as).isComplete = false → (s.course as).task.exit = none) ∧
      ((s.course as).task.phase = .finished →
        (s.course as).task.exit = some ⟨.succeeded, none⟩) ∧
      ((s.course as).task.phase = .terminated →
        (s.course as).task.exit = some ⟨.terminated, none⟩) ∧
      ∀ state text, .error (.unrecoverable state text) ∉ s.results as) ∧
    (∀ past future, as = past ++ future → ∀ before first after,
      s.logged.movesAlong (past.map Action.logged) = before ++ first :: after →
      (∀ m ∈ before, m.transition.target ≠ Names.failure) →
      first.transition.target = Names.failure →
        ∃ cause, first.reason = some cause ∧
          ((s.course as).task.exit = some ⟨.failed, some cause.message⟩ ∧
              (∀ state text, .error (.unrecoverable state text) ∉ s.results as) ∨
            (s.course as).task.exit = some ⟨.systemError, some cause.message⟩ ∧
              .error (.unrecoverable Names.failure cause.message) ∈ s.results as)) ∧
    (∀ exit, (s.course as).task.exit = some exit → exit.status = .succeeded →
      ∀ m ∈ moves, m.transition.target ≠ Names.failure) ∧
    ∀ before m after, moves = before ++ m :: after → m.transition.target = Names.finish →
      FinishFails after ∨ after = [] ∧ (s.course as).task.phase = .finished ∧
        ((∀ m ∈ before, m.transition.target ≠ Names.failure) →
          (s.course as).task.exit = some ⟨.succeeded, none⟩) := by
  intro moves
  subst htable
  obtain ⟨rfl, -⟩ := u.eq_newSession hnew hbuild
  have hruled := ruled_of_new u hcompile now hunsignalled hkept
  obtain ⟨hsame, -⟩ := (u.newSession now).unlogged_course as
  have hnone : moves.find? Move.fails = none ↔
      ∀ m ∈ moves, m.transition.target ≠ Names.failure := by
    simp [Move.fails]
  have hwithout := fun hmoves => Ruled.of_none (hnone.2 hmoves ▸ hruled)
  -- the session with logs has the same task
  rw [← hsame]
  refine ⟨rfl, fun hmoves => ?_, ?_, fun exit hexit hstatus => ?_, ?_⟩
  · obtain ⟨hexit, hplain⟩ := hwithout hmoves
    exact ⟨fun hongoing => hexit.trans (verdict_of_ongoing none hongoing),
      fun hphase => hexit.trans (congrArg _ hphase), fun hphase => hexit.trans (congrArg _ hphase),
      hplain⟩
  · rintro past future rfl before first after hpast hbefore hfirst
    have hmoves : moves = before ++ first :: (after ++
        ((u.newSession now).logged.course (past.map Action.logged)).movesAlong
          (future.map Action.logged)) := by
      have hall := (u.newSession now).logged.movesAlong_append (past.map Action.logged)
        (future.map Action.logged)
      rwa [hpast, List.append_assoc, List.cons_append, ← List.map_append] at hall
    have hfind : moves.find? Move.fails = some first := by
      refine List.find?_eq_some_iff_append.2 ⟨decide_eq_true hfirst, before, _, hmoves, ?_⟩
      exact fun m hm => by simp [Move.fails, hbefore m hm]
    have hfailed := Ruled.of_some (hfind ▸ hruled)
    exact hfailed
  · exact hnone.1 (hruled.eq_none_of_succeeded hexit hstatus)
  · intro before m after hmoves htarget
    rcases course_finish _ _ hmoves htarget with hfails | ⟨rfl, hphase⟩
    · exact .inl hfails
    · refine .inr ⟨rfl, hphase, fun hbefore => ?_⟩
      have hall : ∀ m ∈ moves, m.transition.target ≠ Names.failure := by
        intro m' hm'
        rw [hmoves] at hm'
        rcases List.mem_append.1 hm' with hm' | hm'
        · exact hbefore m' hm'
        · rw [List.mem_singleton.1 hm', htarget]
          decide
      exact (hwithout hall).1.trans (congrArg _ hphase)

end Acting

/-! ## Two tasks that fail -/

/-- A task whose repair fails: its third move leads to `failure`, for what went wrong in the repair,
and with the second step it is stuck there for the same reason. -/
theorem failure_is_kept_repairFails :
    (repairFails.build ⟨0, 0⟩).2 = .ok (repairFails.newSession ⟨0, 0⟩) ∧
      (repairFails.newSession ⟨0, 0⟩).consumedAlong
        (List.replicate 2 (.step .steady ⟨0, 0⟩)) = [] ∧
      ((repairFails.newSession ⟨0, 0⟩).course
        (List.replicate 2 (.step .steady ⟨0, 0⟩))).task.exit =
          some ⟨.systemError, some "handler 'repair' failed: broken"⟩ := by
  have hbuild : (repairFails.build ⟨0, 0⟩).2 = .ok (repairFails.newSession ⟨0, 0⟩) := rfl
  have hunsignalled : (repairFails.newSession ⟨0, 0⟩).consumedAlong
      (List.replicate 2 (.step .steady ⟨0, 0⟩)) = [] := rfl
  obtain ⟨-, -, hfailed, -⟩ := failure_is_kept compile_repairSource rfl rfl hbuild hunsignalled
    (by decide)
  obtain ⟨cause, hcause, hexit⟩ := hfailed _ [] (List.append_nil _).symm [_, _] _ [] rfl
    (by decide) rfl
  cases hcause
  rcases hexit with ⟨hexit, -⟩ | ⟨hexit, -⟩
  · exact absurd hexit (by decide)
  · exact ⟨hbuild, hunsignalled, hexit⟩

/-- A table whose task starts in `finish`. -/
def turnedSource : String :=
  "finish \x7b\n * failure\n\x7d\n"

/-- The table of `turnedSource`. -/
def turnedTable : Table where
  blocks :=
    [{ state := "finish"
       transitions := [{ value := "*", target := "failure", line := 2 }]
       line := 1 }]
  index := .ofList [("finish", 0)]
  sourceHash := Digest.sha256 turnedSource

/-- A new task of `turnedTable` with a handler for `finish` that succeeds. -/
def turnedTask : Setup Unit ScriptedSupply where
  table := turnedTable
  handler := { Handler.none with catalog := { states := ["finish"] } }
  memory := ()
  taskId := "turned"

/-- A task goes on from the state that it starts in, also from `finish`: it is entered, its handler
runs and no problem is met, but the same step moves on, and the task fails. -/
theorem finish_left_turnedTask :
    Table.compile turnedSource = .ok turnedTable ∧
      (turnedTask.build ⟨0, 0⟩).2 = .ok (turnedTask.newSession ⟨0, 0⟩) ∧
      (turnedTask.newSession ⟨0, 0⟩).consumedAlong [.step .steady ⟨0, 0⟩] = [] ∧
      (∀ c ∈ ((turnedTask.newSession ⟨0, 0⟩).logged.course
        [.step .steady ⟨0, 0⟩]).memory.log, c.keepsExit = true) ∧
      ((turnedTask.newSession ⟨0, 0⟩).logged.course
        [.step .steady ⟨0, 0⟩]).memory.log.filterMap Handler.Call.entered? = ["finish"] ∧
      ((turnedTask.newSession ⟨0, 0⟩).course [.step .steady ⟨0, 0⟩]).troubles = [] ∧
      ((turnedTask.newSession ⟨0, 0⟩).course
        [.step .steady ⟨0, 0⟩]).task.recording.visited = ["finish", "failure"] ∧
      ((turnedTask.newSession ⟨0, 0⟩).course [.step .steady ⟨0, 0⟩]).isComplete = false ∧
      ((turnedTask.newSession ⟨0, 0⟩).course [.step .steady ⟨0, 0⟩]).task.exit =
        some ⟨.failed, some "transition '' from 'finish'"⟩ := by
  have hcompile : Table.compile turnedSource = .ok turnedTable :=
    Table.compile_of_foldlM (u := { table := { turnedTable with sourceHash := "" } }) rfl rfl
  exact ⟨hcompile, rfl, rfl, by decide, rfl, rfl, rfl, rfl, by decide⟩

end Session

end TaskTable
