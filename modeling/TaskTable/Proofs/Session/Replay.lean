import TaskTable.Proofs.Session.Limits
import TaskTable.Proofs.Session.Quiet

/-!
# Replays

A new task that is simulated by a script of what the selectors of another one gave does as that one
did. Both are runs of the same trace: `run_of_steps` reads the run off the first task, together with
all values taken in it, and `steps_of_run` makes the same run with a supply that gives these values.
-/

namespace TaskTable

/-! ## Runs of a trace -/

/-- What two steps that went alike have in common in their results. -/
def StepResult.pace (r : StepResult) : Nat × Bool :=
  (r.wait, r.complete)

/-- Quiet steps in a row, with what was asked for in them and their paces. -/
inductive Trace.Run (t : Table) : Trace → List (String × String) → List (Nat × Bool) → Trace → Prop
  | nil (tr : Trace) : Run t tr [] [] tr
  | cons {tr tr' : Trace} {asked asked' : List (String × String)} {paces : List (Nat × Bool)}
      {p : Stride} (now : Instant) (value : String)
      (step : tr.stepOn t now value = some (asked, p)) (rest : Run t p.trace asked' paces tr') :
      Run t tr (asked ++ asked') ((p.wait, p.complete) :: paces) tr'

namespace Trace

/-- A run records what was asked for in it. -/
theorem Run.selected_eq {t : Table} {tr tr' : Trace} {asked : List (String × String)}
    {paces : List (Nat × Bool)} (h : Run t tr asked paces tr') :
    tr'.selected = tr.selected ++ asked := by
  induction h with
  | nil tr => rw [List.append_nil]
  | cons now value step rest ih => rw [ih, selected_stepOn step, List.append_assoc]

/-- Values are asked for in states with a block. -/
theorem Run.exists_block {t : Table} {tr tr' : Trace} {asked : List (String × String)}
    {paces : List (Nat × Bool)} (h : Run t tr asked paces tr') {e : String × String}
    (he : e ∈ asked) : ∃ b, t.block? e.1 = some b := by
  induction h with
  | nil tr => cases he
  | cons now value step rest ih =>
    rcases List.mem_append.1 he with he | he
    · exact exists_block_of_stepOn step he
    · exact ih he

end Trace

namespace Session

section Steps

variable {σ τ : Type} [Supply τ]

/-- Steps in a row, each at its own time, and what each of them comes to. -/
def steps : (times : List Instant) → Session σ τ → Session σ τ × List (Except Fault StepResult)
  | [], s => (s, [])
  | now :: times, s =>
    match s.step now with
    | (s, r) =>
      match steps times s with
      | (s, rs) => (s, r :: rs)

theorem steps_cons (now : Instant) (times : List Instant) (s : Session σ τ) :
    s.steps (now :: times) =
      (((s.step now).1.steps times).1, (s.step now).2 :: ((s.step now).1.steps times).2) := rfl

theorem steps_append (s : Session σ τ) (times times' : List Instant) :
    (s.steps (times ++ times')).1 = ((s.steps times).1.steps times').1 := by
  induction times generalizing s with
  | nil => rfl
  | cons now times ih => exact ih (s.step now).1

/-- No step meets a signal, and each is as if the pause flag was down whenever it looks. -/
def Undisturbed : (times : List Instant) → Session σ τ → Prop
  | [], _ => True
  | now :: times, s =>
    s.signal? = none ∧ s.step now = s.stepSeeing .clear now ∧ Undisturbed times (s.step now).1

theorem length_steps (s : Session σ τ) (times : List Instant) :
    (s.steps times).2.length = times.length := by
  induction times generalizing s with
  | nil => rfl
  | cons now times ih => rw [steps_cons, List.length_cons, ih, List.length_cons]

/-! ## What a run keeps -/

omit [Supply τ] in
theorem Change.troubles_subset {s s' : Session σ τ} (h : Change s s') :
    s.troubles ⊆ s'.troubles := by
  rcases h.troubles_eq with h | ⟨trouble, -, h⟩ <;> rw [h]
  · exact fun _ h => h
  · exact List.subset_append_left _ _

/-- No run forgets a problem or starts or ends a simulation. -/
theorem steps_keeps (s : Session σ τ) (times : List Instant) :
    s.troubles ⊆ (s.steps times).1.troubles ∧ (s.steps times).1.isSimulating = s.isSimulating := by
  induction times generalizing s with
  | nil => exact ⟨fun _ h => h, rfl⟩
  | cons now times ih =>
    have hstep : s.troubles ⊆ (s.step now).1.troubles ∧
        (s.step now).1.isSimulating = s.isSimulating :=
      (s.stepSeeing_changes .steady now).keeps
        (P := fun s' => s.troubles ⊆ s'.troubles ∧ s'.isSimulating = s.isSimulating)
        (fun s₁ s₂ hchange h => ⟨fun _ ht => hchange.troubles_subset (h.1 ht),
          hchange.isSimulating_eq.trans h.2⟩)
        ⟨fun _ h => h, rfl⟩
    obtain ⟨hsubset, hsimulating⟩ := ih (s.step now).1
    exact ⟨fun _ ht => hsubset (hstep.1 ht), hsimulating.trans hstep.2⟩

/-- A run in which nothing disturbs the task and no step fails is a run of its trace. -/
theorem run_of_steps {s : Session σ τ} {times : List Instant} (hquiet : s.Undisturbed times)
    {results : List StepResult} (hok : (s.steps times).2 = results.map .ok)
    (hcalm : s.Calm (s.steps times).1.troubles) :
    ∃ asked, Trace.Run s.table s.trace asked (results.map StepResult.pace)
      (s.steps times).1.trace := by
  induction times generalizing s results with
  | nil =>
    cases results with
    | nil => exact ⟨[], .nil _⟩
    | cons r rs => cases hok
  | cons now times ih =>
    obtain ⟨hsignal, hclear, hquiet⟩ := hquiet
    obtain ⟨r, rs, rfl, hr, hrs⟩ : ∃ r rs, results = r :: rs ∧ (s.step now).2 = .ok r ∧
        ((s.step now).1.steps times).2 = rs.map .ok := by
      cases results with
      | nil => cases hok
      | cons r rs =>
        obtain ⟨hr, hrs⟩ := List.cons.inj hok
        exact ⟨r, rs, rfl, hr, hrs⟩
    -- what is met in the first step is among the problems of the whole run
    have hkeeps := (s.step now).1.steps_keeps times
    have hfirst : s.Calm (s.stepSeeing .clear now).1.troubles := by
      rw [← hclear]
      exact hcalm.imp_right fun h t ht => h t (hkeeps.1 ht)
    rw [hclear] at hr
    obtain ⟨value, asked, p, supply, hstep, hmakes⟩ := stepSeeing_of_ok hsignal hfirst hr
    have htable : (s.step now).1.table = s.table := (s.stepSeeing_changes .steady now).table_eq
    have hsimulating : (s.step now).1.isSimulating = s.isSimulating := ((s.steps_keeps [now]).2)
    obtain ⟨asked', hrest⟩ := ih hquiet hrs (hcalm.imp_left hsimulating.trans)
    obtain ⟨r', hr', hwait, hcomplete⟩ := hmakes.result
    cases hr.symm.trans hr'
    have htrace : (s.step now).1.trace = p.trace := by rw [hclear, hmakes.trace]
    rw [htable, htrace] at hrest
    refine ⟨asked ++ asked', ?_⟩
    rw [List.map_cons, StepResult.pace, hwait, hcomplete]
    exact .cons now value hstep hrest

/-! ## The same run again -/

/-- A simulated task that nothing disturbs, nor will. -/
structure Rests (s : Session σ τ) : Prop where
  simulated : s.isSimulating = true
  quiet : s.signal? = none
  unpaused : s.paused = false

omit [Supply τ] in
theorem Rests.change {s s' : Session σ τ} (h : s.Rests) (hchange : Change s s') : s'.Rests := by
  have hsimulated : s'.isSimulating = true := hchange.isSimulating_eq.trans h.simulated
  cases hchange with
  | called state memory desk live =>
    -- no handler is called in a simulation
    have hsimulating := h.simulated
    rw [isSimulating, live] at hsimulating
    cases hsimulating
  | supplied | noted | started | finished => exact ⟨hsimulated, h.quiet, h.unpaused⟩
  | moved now m allowed =>
    have hquiet : (s.move now m).signal? = none := by
      unfold signal?
      rw [s.id_move, move_eq_updateTask]
      exact h.quiet
    refine ⟨hsimulated, hquiet, ?_⟩
    rw [move_eq_updateTask]
    exact h.unpaused
  | halted now state e running current missing builtin =>
    obtain ⟨set, exit, phase, -, hhalted⟩ := goOnWithoutBlock_builtin now s e builtin
    rw [hhalted] at hsimulated ⊢
    exact ⟨hsimulated, h.quiet, h.unpaused⟩
  | terminated now signal ongoing pending =>
    rw [h.quiet] at pending
    cases pending

theorem Rests.step {s : Session σ τ} (h : s.Rests) (now : Instant) : (s.step now).1.Rests :=
  (s.stepSeeing_changes .steady now).keeps (fun _ _ hchange h => h.change hchange) h

/-- A run of a trace is made by every simulated task with this trace, up to times, whose supply
gives the values that were asked for. -/
theorem steps_of_run {t : Table} {tr tr' : Trace} {asked : List (String × String)}
    {paces : List (Nat × Bool)} (hrun : Trace.Run t tr asked paces tr') {z : Instant}
    {s : Session σ τ} {times : List Instant} (hlength : times.length = paces.length)
    (htable : s.table = t) (htrace : s.trace.retime z = tr.retime z) (hrests : s.Rests)
    {before after : τ} (hsupply : s.supply = some before)
    (hfeeds : Supply.Feeds before asked after) :
    ∃ results : List StepResult, (s.steps times).2 = results.map .ok ∧
      results.map StepResult.pace = paces ∧ (s.steps times).1.trace.retime z = tr'.retime z ∧
      (s.steps times).1.supply = some after := by
  induction hrun generalizing s times before with
  | nil tr =>
    cases List.length_eq_zero_iff.1 hlength
    cases hfeeds
    exact ⟨[], rfl, rfl, htrace, hsupply⟩
  | @cons tr tr' asked asked' paces p now value hstep hrest ih =>
    obtain ⟨now', times, rfl⟩ := List.exists_cons_of_length_eq_add_one hlength
    obtain ⟨between, hfirst, hfeeds⟩ := Supply.feeds_append hfeeds
    -- the step of the first task, made by this one at its own time
    obtain ⟨p', hstep', hp'⟩ : ∃ p', s.trace.stepOn s.table now' value = some (asked, p') ∧
        p'.retime z = p.retime z := by
      have hretime := Trace.stepOn_retime t z now' s.trace value
      rw [htrace, Trace.stepOn_retime t z now, hstep] at hretime
      obtain ⟨⟨asked₀, p'⟩, hp', heq⟩ := Option.map_eq_some_iff.1 hretime.symm
      obtain ⟨rfl, heq⟩ := Prod.mk.inj heq
      exact ⟨p', htable ▸ hp', heq⟩
    have hmakes : Makes (s.step now') (some between) p' :=
      stepSeeing_of_feeds (fun _ => hrests.unpaused) hrests.quiet hsupply hstep' hfirst
    obtain ⟨r, hr, hwait, hcomplete⟩ := hmakes.result
    have hnext : (s.step now').1.table = t :=
      (s.stepSeeing_changes .steady now').table_eq.trans htable
    have hsame : (s.step now').1.trace.retime z = p.trace.retime z := by
      rw [hmakes.trace]
      exact congrArg Stride.trace hp'
    obtain ⟨rs, hrs, hpaces, hlast, hafter⟩ := ih (Nat.succ.inj hlength) hnext hsame
      (hrests.step now') hmakes.supply hfeeds
    refine ⟨r :: rs, ?_, ?_, hlast, hafter⟩
    · rw [steps_cons, hr, hrs]
      rfl
    · have hwait' : p'.wait = p.wait := (congrArg Stride.wait hp' :)
      have hcomplete' : p'.complete = p.complete := (congrArg Stride.complete hp' :)
      rw [List.map_cons, hpaces, StepResult.pace, hwait, hcomplete, hwait', hcomplete']

end Steps

/-! ## Scripts of a run -/

/-- A new task that replays a script: it has no handler, and a supply stands in for selectors. -/
def replay {τ : Type} (t : Table) (taskId : String) (supply : τ) : Setup Unit τ where
  table := t
  handler := Handler.none
  memory := ()
  taskId
  supply := some supply

/-- Two runs went alike: all steps came to a result, with the same waits and ends, and at last both
tasks are in the same state with the same counts and the same events, but for their times. -/
structure WentAlike {σ τ σ' τ' : Type} (o : Session σ τ × List (Except Fault StepResult))
    (o' : Session σ' τ' × List (Except Fault StepResult)) : Prop where
  results : ∃ results results' : List StepResult, o.2 = results.map .ok ∧ o'.2 = results'.map .ok ∧
    results'.map StepResult.pace = results.map StepResult.pace
  events : ∀ z, o'.1.task.recording.events.map (Event.withTime z) =
    o.1.task.recording.events.map (Event.withTime z)
  counts : o'.1.task.counts = o.1.task.counts
  current : o'.1.task.current = o.1.task.current
  phase : o'.1.task.phase = o.1.task.phase

theorem Event.withTime_withTime (z z' : Instant) (e : Event) :
    (e.withTime z').withTime z = e.withTime z := by
  cases e <;> rfl

/-- A new task of the same table with a supply that gives what was asked for in a run goes alike. -/
theorem replay_wentAlike {σ τ τ' : Type} [Supply τ] [Supply τ'] {u : Setup σ τ} {now : Instant}
    {times : List Instant} {results : List StepResult} {asked : List (String × String)}
    (hok : ((u.newSession now).steps times).2 = results.map .ok)
    (hrun : Trace.Run u.table .fresh asked (results.map StepResult.pace)
      ((u.newSession now).steps times).1.trace)
    {before after : τ'} (hfeeds : Supply.Feeds before asked after) (taskId : String)
    (now' : Instant) {times' : List Instant} (hlength : times'.length = times.length) :
    WentAlike ((u.newSession now).steps times)
        (((replay u.table taskId before).newSession now').steps times') ∧
      (((replay u.table taskId before).newSession now').steps times').1.supply = some after := by
  have hcount : times'.length = (results.map StepResult.pace).length := by
    have hresults : ((u.newSession now).steps times).2.length = results.length := by
      rw [hok, List.length_map]
    rw [List.length_map, hlength, ← hresults, length_steps]
  obtain ⟨results', hok', hpaces, htrace, hafter⟩ :=
    steps_of_run (s := (replay u.table taskId before).newSession now') hrun (z := now) hcount rfl
      rfl ⟨rfl, rfl, rfl⟩ rfl hfeeds
  refine ⟨⟨⟨results, results', hok, hok', hpaces⟩, fun z => ?_, ?_, ?_, ?_⟩, hafter⟩
  · have hevents := congrArg (fun tr : Trace => tr.events.map (Event.withTime z)) htrace
    simp only [Trace.retime, List.map_map, Function.comp_def, Event.withTime_withTime] at hevents
    exact hevents
  · exact congrArg Trace.counts htrace
  · exact congrArg Trace.current htrace
  · exact congrArg Trace.phase htrace

/-- The scripts of a new task's recording replay it. When nothing disturbed the task, no step
failed, no state handler erred, and the values can be written down, then both scripts can be read,
and a new task of the same table without a handler goes alike with either of them. The verifying
supply is then finished. -/
theorem derived_scripts_replay {σ τ : Type} [Supply τ] {source : String} {t : Table}
    (hcompile : Table.compile source = .ok t) {u : Setup σ τ} (htable : u.table = t)
    (hnew : u.stored = none) {now : Instant} {s : Session σ τ} (hbuild : (u.build now).2 = .ok s)
    {times : List Instant} (hquiet : s.Undisturbed times) {results : List StepResult}
    (hok : (s.steps times).2 = results.map .ok) (hcalm : s.Calm (s.steps times).1.troubles)
    (hvalues : ∀ e ∈ (s.steps times).1.task.recording.selected, Grammar.Quotable e.2)
    (taskId : String) (now' : Instant) {times' : List Instant}
    (hlength : times'.length = times.length) :
    (∃ supply r,
      ScriptedSupply.read (s.steps times).1.task.recording.simulationScript = .ok supply ∧
      ((replay t taskId supply).build now').2 = .ok r ∧
      WentAlike (s.steps times) (r.steps times')) ∧
    ∃ supply r,
      VerifyingSupply.read (s.steps times).1.task.recording.verificationScript = .ok supply ∧
      ((replay t taskId supply).build now').2 = .ok r ∧
      WentAlike (s.steps times) (r.steps times') ∧
      ∃ rest, (r.steps times').1.supply = some rest ∧ rest.isFinished = true := by
  obtain ⟨rfl, state, hstart⟩ := u.eq_newSession hnew hbuild
  subst htable
  obtain ⟨asked, hrun⟩ := run_of_steps hquiet hok hcalm
  have hselected : ((u.newSession now).steps times).1.task.recording.selected = asked :=
    hrun.selected_eq
  have hwf : u.table.WellFormed := Table.wellFormed_of_compile hcompile
  have hwritable : ∀ e ∈ ((u.newSession now).steps times).1.task.recording.selected,
      Script.Writable e := by
    intro e he
    -- values are taken in states with a block, whose names are those of the table
    obtain ⟨b, hb⟩ := hrun.exists_block (hselected ▸ he)
    obtain ⟨hmem, hstate⟩ := hwf.mem_of_block? hb
    exact ⟨hstate ▸ (hwf.blocks b hmem).state, hvalues e he⟩
  have hbuild' : ∀ (τ' : Type) (supply : τ'), ((replay u.table taskId supply).build now').2 =
      .ok ((replay u.table taskId supply).newSession now') := by
    intro τ' supply
    unfold Setup.build
    rw [show (replay u.table taskId supply).table.startState = _ from hstart]
    rfl
  constructor
  · obtain ⟨after, hfeeds⟩ := ScriptedSupply.feeds_ofGroups asked
    refine ⟨_, _, ?_, hbuild' _ _, (replay_wentAlike hok hrun hfeeds taskId now' hlength).1⟩
    unfold ScriptedSupply.read
    rw [Recording.read_simulationScript hwritable, hselected]
  · obtain ⟨halike, hafter⟩ := replay_wentAlike hok hrun (VerifyingSupply.feeds_ofEntries asked)
      taskId now' hlength
    refine ⟨_, _, ?_, hbuild' _ _, halike, _, hafter, ?_⟩
    · unfold VerifyingSupply.read
      rw [Recording.read_verificationScript hwritable, hselected]
    · simp [VerifyingSupply.isFinished]

/-- A live task that polls twice and is then refused is replayed by its scripts. -/
theorem derived_scripts_replay_pollAgain :
    ∃ supply r,
      VerifyingSupply.read ((pollAgain.newSession ⟨0, 0⟩).steps
        (List.replicate 3 ⟨0, 0⟩)).1.task.recording.verificationScript = .ok supply ∧
      ((replay pollTable "again" supply).build ⟨1, 0⟩).2 = .ok r ∧
      WentAlike ((pollAgain.newSession ⟨0, 0⟩).steps (List.replicate 3 ⟨0, 0⟩))
        (r.steps (List.replicate 3 ⟨1, 0⟩)) ∧
      ∃ rest, (r.steps (List.replicate 3 ⟨1, 0⟩)).1.supply = some rest ∧
        rest.isFinished = true := by
  have hbuild : (pollAgain.build ⟨0, 0⟩).2 = .ok (pollAgain.newSession ⟨0, 0⟩) := rfl
  have hquiet : (pollAgain.newSession ⟨0, 0⟩).Undisturbed (List.replicate 3 ⟨0, 0⟩) :=
    ⟨rfl, rfl, rfl, rfl, rfl, rfl, trivial⟩
  have hok : ((pollAgain.newSession ⟨0, 0⟩).steps (List.replicate 3 ⟨0, 0⟩)).2 =
      (List.replicate 3 (StepResult.running 0)).map .ok := rfl
  have htroubles : ((pollAgain.newSession ⟨0, 0⟩).steps (List.replicate 3 ⟨0, 0⟩)).1.troubles =
      [.limitReached "poll" "again" 2] := rfl
  have hselected : ((pollAgain.newSession ⟨0, 0⟩).steps
      (List.replicate 3 ⟨0, 0⟩)).1.task.recording.selected = List.replicate 3 ("poll", "again") :=
    rfl
  have hlength : (List.replicate 3 (⟨1, 0⟩ : Instant)).length =
      (List.replicate 3 (⟨0, 0⟩ : Instant)).length := rfl
  refine (derived_scripts_replay compile_pollSource rfl rfl hbuild hquiet hok (.inr ?_) ?_ "again"
    ⟨1, 0⟩ hlength).2
  · rw [htroubles]
    decide
  · rw [hselected]
    intro e he
    rw [(List.mem_replicate.1 he).2]
    exact ⟨by decide, .inl (by decide)⟩

end Session
end TaskTable
