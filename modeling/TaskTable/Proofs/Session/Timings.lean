import TaskTable.Proofs.Session.Delivery
import TaskTable.Proofs.Session.Simulated
import TaskTable.Proofs.Timers

/-!
# The timings that are reported

A task reports its timings when it ends in `finish`, and never else. `Reported` is what holds of the
reports at all times; it is kept by each kind of change, as only `complete` writes reports and a
task ends once. `timings_reported_once` says it of whole courses.
-/

namespace TaskTable
namespace Session

variable {σ τ : Type}

/-- While a task has not ended it has reported nothing. Once it has, no timer runs, and the totals
of all timers are reported if it ended in `finish`. -/
structure Reported (s : Session σ τ) : Prop where
  ongoing : s.isComplete = false → s.reports = []
  ended : s.isComplete = true → s.task.timers.active = none ∧
    s.reports = if s.task.current = some Names.finish then s.task.timers.totals.entries else []

/-! ## What a change reports -/

theorem reports_enterLive (s : Session σ τ) (state : String) (cause : Option String) :
    (s.enterLive state cause).1.reports = s.reports := by
  rcases s.enterLive_eq state cause with h | ⟨-, memory, desk, -, h⟩ <;> rw [h]
  rfl

/-- A task that ends without an earlier report reports what it has to. -/
theorem reported_complete {s : Session σ τ} (h : s.reports = []) (now : Instant) {phase : Phase}
    (hphase : phase.isTerminal = true) (exit : Exit) : (s.complete now phase exit).Reported where
  ongoing hongoing := by
    have hcomplete : (s.complete now phase exit).isComplete = true := hphase
    rw [hcomplete] at hongoing
    cases hongoing
  ended _ := by
    refine ⟨Timers.active_stop _ _, ?_⟩
    simp only [complete, h, List.nil_append]

/-- Whatever leads to the end of a terminated task, it ends by being completed, with nothing reported
on the way. -/
theorem terminate_completes (s : Session σ τ) (now : Instant) (reason : String) :
    ∃ (s' : Session σ τ) (exit : Exit), s'.reports = s.reports ∧
      (s.terminate now reason).1 = s'.complete now .terminated exit := by
  unfold terminate
  dsimp only
  split
  · refine ⟨_, _, ?_, rfl⟩
    exact reports_enterLive _ _ _
  · split
    · refine ⟨_, _, ?_, rfl⟩
      exact reports_enterLive _ _ _
    · refine ⟨_, _, ?_, rfl⟩
      rfl

/-- A task that runs on has reported nothing yet. -/
theorem reported_running {s : Session σ τ} (hphase : s.task.phase = .running)
    (h : s.reports = []) : s.Reported where
  ongoing _ := h
  ended hcomplete := absurd hcomplete (by rw [isComplete, hphase]; decide)

theorem Change.reported {s s' : Session σ τ} (h : Change s s') (hs : s.Reported) : s'.Reported := by
  have hongoing : s.task.phase = .running → s.reports = [] :=
    fun hphase => hs.ongoing (by rw [isComplete, hphase]; rfl)
  cases h with
  | called | supplied | noted => exact ⟨hs.ongoing, hs.ended⟩
  | started now state ongoing => exact reported_running rfl (hs.ongoing ongoing)
  | moved now m allowed =>
    have hphase : (s.move now m).task.phase = .running :=
      (congrArg Trace.phase (s.trace_move now m)).trans allowed.running
    refine reported_running hphase ?_
    rw [move_eq_updateTask]
    exact hongoing allowed.running
  | finished now running => exact reported_complete (hongoing running) now rfl _
  | halted now state e running current missing builtin =>
    obtain ⟨set, exit, phase, hterminal, heq⟩ := goOnWithoutBlock_builtin now s e builtin
    rw [heq]
    exact reported_complete (s := s.updateTask _) (hongoing running) now hterminal exit
  | terminated now signal ongoing =>
    obtain ⟨s', exit, hreports, heq⟩ := terminate_completes
      { s with queue := s.queue.consume s.task.id signal.id } now signal.text
    rw [heq]
    exact reported_complete (hreports.trans (hs.ongoing ongoing)) now rfl exit

/-! ## Whole courses -/

section Acting

variable [Supply τ]

/-- What is done between two steps leaves alone whatever the reports depend on. -/
theorem reports_act {s : Session σ τ} {a : Action τ} (hstep : ∀ watch now, a ≠ .step watch now) :
    (s.act a).reports = s.reports ∧ (s.act a).isComplete = s.isComplete ∧
      (s.act a).task.timers = s.task.timers ∧ (s.act a).task.current = s.task.current := by
  cases a with
  | step watch now => exact absurd rfl (hstep watch now)
  | hold | send | simulate | stopSimulating => exact ⟨rfl, rfl, rfl, rfl⟩
  | clearCount state value =>
    rcases s.clearCount_act state value with h | ⟨line, h⟩ <;> rw [h] <;> exact ⟨rfl, rfl, rfl, rfl⟩

/-- Nothing is reported by a task that has ended, and its timers stay. -/
theorem reports_act_of_isComplete {s : Session σ τ} (h : s.isComplete = true) (a : Action τ) :
    (s.act a).reports = s.reports ∧ (s.act a).task.timers = s.task.timers := by
  by_cases hstep : ∃ watch now, a = .step watch now
  · obtain ⟨watch, now, rfl⟩ := hstep
    have hstays : s.act (.step watch now) = s := stepSeeing_of_isComplete h watch now
    rw [hstays]
    exact ⟨rfl, rfl⟩
  · obtain ⟨hreports, -, htimers, -⟩ :=
      reports_act (s := s) (a := a) fun watch now h => hstep ⟨watch, now, h⟩
    exact ⟨hreports, htimers⟩

theorem reports_course_of_isComplete {s : Session σ τ} (h : s.isComplete = true)
    (as : List (Action τ)) :
    (s.course as).reports = s.reports ∧ (s.course as).task.timers = s.task.timers := by
  induction as generalizing s with
  | nil => exact ⟨rfl, rfl⟩
  | cons a rest ih =>
    obtain ⟨hreports, htimers⟩ := reports_act_of_isComplete h a
    obtain ⟨hreports', htimers'⟩ := ih (isComplete_act h a)
    exact ⟨hreports'.trans hreports, htimers'.trans htimers⟩

theorem reported_course {s : Session σ τ} (h : s.Reported) (as : List (Action τ)) :
    (s.course as).Reported := by
  refine course_induction h (fun _ _ hchange hs => hchange.reported hs) ?_
  intro s a _ hstep hs
  obtain ⟨hreports, hcomplete, htimers, hcurrent⟩ := reports_act (s := s) hstep
  constructor
  · rw [hreports, hcomplete]
    exact hs.ongoing
  · rw [hreports, hcomplete, htimers, hcurrent]
    exact hs.ended

/-- A new task reports nothing until it has ended. If it ends in `finish`, it has then reported each
of its timers once, in the order of their names and with their final totals; if it ends anywhere
else, it has reported nothing. Whatever is done to it later adds no report and changes no total. -/
theorem timings_reported_once {u : Setup σ τ} (hnew : u.stored = none) {now : Instant}
    {s : Session σ τ} (hbuild : (u.build now).2 = .ok s) (as : List (Action τ)) :
    ((s.course as).isComplete = false → (s.course as).reports = []) ∧
    ((s.course as).isComplete = true → (s.course as).task.current = some Names.finish →
      (s.course as).task.timers.active = none ∧
      (s.course as).reports = (s.course as).task.timers.totals.entries ∧
      (s.course as).reports.Pairwise (fun r r' => r.1 < r'.1) ∧
      ∀ name ms, (name, ms) ∈ (s.course as).reports ↔
        (s.course as).task.timers.totals.get? name = some ms) ∧
    ((s.course as).isComplete = true → (s.course as).task.current ≠ some Names.finish →
      (s.course as).reports = []) ∧
    ((s.course as).isComplete = true → ∀ more,
      (s.course (as ++ more)).reports = (s.course as).reports ∧
        (s.course (as ++ more)).task.timers = (s.course as).task.timers) := by
  obtain ⟨rfl, -⟩ := u.eq_newSession hnew hbuild
  have hfirst : (u.newSession now).Reported := ⟨fun _ => rfl, nofun⟩
  have hreported := reported_course hfirst as
  refine ⟨hreported.ongoing, fun hcomplete hfinish => ?_, fun hcomplete hother => ?_,
    fun hcomplete more => ?_⟩
  · obtain ⟨hactive, hreports⟩ := hreported.ended hcomplete
    rw [if_pos hfinish] at hreports
    rw [hreports]
    exact ⟨hactive, rfl, SortedMap.ascending _,
      fun name ms => ⟨SortedMap.get?_of_mem (e := (name, ms)), SortedMap.mem_of_get?⟩⟩
  · rw [(hreported.ended hcomplete).2, if_neg hother]
  · rw [course_append]
    exact reports_course_of_isComplete hcomplete more

end Acting

/-- A task is held back for a second and finished a second later, after which it is signalled: its
only timer is reported with the two seconds. -/
theorem timings_reported_once_pollScripted :
    (pollScripted.build ⟨0, 0⟩).2 = .ok (pollScripted.newSession ⟨0, 0⟩) ∧
      ((pollScripted.newSession ⟨0, 0⟩).course [.step .steady ⟨0, 0⟩, .hold true,
        .step .steady ⟨1, 0⟩]).reports = [] ∧
      ((pollScripted.newSession ⟨0, 0⟩).course [.step .steady ⟨0, 0⟩, .hold true,
        .step .steady ⟨1, 0⟩, .hold false, .step .steady ⟨2, 0⟩, .send "poll" none,
        .step .steady ⟨3, 0⟩]).reports = [("system", 2000)] := by
  have hbuild : (pollScripted.build ⟨0, 0⟩).2 = .ok (pollScripted.newSession ⟨0, 0⟩) := rfl
  obtain ⟨hnone, -, -, -⟩ := timings_reported_once rfl hbuild
    [.step .steady ⟨0, 0⟩, .hold true, .step .steady ⟨1, 0⟩]
  obtain ⟨-, hfinished, -, hlater⟩ := timings_reported_once rfl hbuild
    [.step .steady ⟨0, 0⟩, .hold true, .step .steady ⟨1, 0⟩, .hold false, .step .steady ⟨2, 0⟩]
  obtain ⟨-, hreports, -, -⟩ := hfinished rfl rfl
  obtain ⟨hlater, -⟩ := hlater rfl [.send "poll" none, .step .steady ⟨3, 0⟩]
  refine ⟨hbuild, hnone rfl, ?_⟩
  exact hlater.trans (hreports.trans rfl)

end Session
end TaskTable
