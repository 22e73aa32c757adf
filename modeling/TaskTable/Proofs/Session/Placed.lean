import TaskTable.Proofs.Migration
import TaskTable.Proofs.Session.Delivery

/-!
# Tasks in their place

A task is in no state until it starts, and it is in a state while it runs. Every session that comes
about has its task in its place, and the task is started once: no step but the first enters a state
that no transition leads to.
-/

namespace TaskTable

/-- A task is in no state and has no exit until it starts, and it is in a state while it runs. -/
structure Task.Placed (t : Task) : Prop where
  fresh : t.phase = .notStarted → t.current = none ∧ t.exit = none
  running : t.phase = .running → t.current ≠ none

theorem Task.Placed.apply {t : Task} (h : t.Placed) (table : Table) (r : Requests) :
    (Migration.apply table t r).1.Placed := by
  rcases Migration.apply_eq table t r with heq | ⟨counts, heq | ⟨state, heq⟩⟩ <;> rw [heq]
  · exact ⟨fun _ => ⟨rfl, rfl⟩, nofun⟩
  · exact ⟨h.fresh, h.running⟩
  · -- a task that is moved to a state runs from then on, unless it has ended
    refine ⟨fun hphase => ?_, fun _ => nofun⟩
    simp only [Migration.moveTo] at hphase
    split at hphase
    · cases hphase
    · next hstarted => exact absurd hphase hstarted

/-- A task is in its place once a session is built for it. -/
theorem Setup.placed_build {σ τ : Type} {u : Setup σ τ}
    (hstored : ∀ t, u.stored = some t → t.Placed) {now : Instant} {s : Session σ τ}
    (hbuild : (u.build now).2 = .ok s) : s.task.Placed := by
  unfold build at hbuild
  split at hbuild
  · cases hbuild
  · split at hbuild
    · cases hbuild
      exact ⟨fun _ => ⟨rfl, rfl⟩, nofun⟩
    · next t ht =>
      split at hbuild
      · cases hbuild
      · next m t' hmigrate =>
        cases hbuild
        have hplaced : t'.Placed := Migration.migrate_keeps (fun t r ht => ht.apply u.table r)
          (fun t versions ht => ⟨ht.fresh, ht.running⟩) hmigrate (hstored t ht)
        exact ⟨hplaced.fresh, hplaced.running⟩

namespace Session

/-! ## Which way a step goes -/

section Ways

variable {σ τ : Type} [Supply τ] {s : Session σ τ} {watch : Watch} {now : Instant} {state : String}

omit [Supply τ] in
theorem isComplete_of_phase {phase : Phase} (h : s.task.phase = phase) :
    s.isComplete = phase.isTerminal :=
  congrArg Phase.isTerminal h

/-- A step that meets a signal terminates the task. -/
theorem stepSeeing_signal {x : Signal} (hongoing : s.isComplete = false)
    (hsignal : s.signal? = some x) (watch : Watch) (now : Instant) :
    s.stepSeeing watch now =
      { s with queue := s.queue.consume s.task.id x.id }.terminate now x.text := by
  unfold stepSeeing
  rw [hongoing, hsignal]
  rfl

theorem stepSeeing_held {watch : Watch} (hongoing : s.isComplete = false)
    (hsignal : s.signal? = none) (hheld : watch .atStart s.paused = true) (now : Instant) :
    s.stepSeeing watch now = s.held := by
  unfold stepSeeing
  rw [hongoing, hsignal, hheld]
  rfl

theorem stepSeeing_start (hongoing : s.isComplete = false) (hsignal : s.signal? = none)
    (hfree : watch .atStart s.paused = false) (hfresh : s.task.phase = .notStarted) :
    s.stepSeeing watch now = s.start watch now := by
  unfold stepSeeing
  rw [hongoing, hsignal, hfree, hfresh]
  rfl

theorem stepSeeing_goOn (hsignal : s.signal? = none) (hfree : watch .atStart s.paused = false)
    (hrunning : s.task.phase = .running) (hcurrent : s.task.current = some state) :
    s.stepSeeing watch now = s.goOn watch now state := by
  have hongoing : s.isComplete = false := isComplete_of_phase hrunning
  unfold stepSeeing
  rw [hongoing, hsignal, hfree, hrunning, hcurrent]
  rfl

end Ways

variable {σ τ : Type} [Supply τ]

/-! ## Starting -/

omit [Supply τ] in
/-- A task that has started has started for good. -/
theorem Changes.started {s s' : Session σ τ} (h : Changes s s')
    (hstarted : s.task.phase ≠ .notStarted) : s'.task.phase ≠ .notStarted := by
  refine h.keeps (P := fun s => s.trace.phase ≠ .notStarted) (fun s s' hchange hs => ?_) hstarted
  have hturns := hchange.turns
  generalize s'.trace = tr at hturns
  cases hturns with
  | same | moved => exact hs
  | started | signalled => nofun
  | stopped phase ongoing terminal =>
    rintro rfl
    cases terminal

/-- A start that finds a state to start in starts the task. -/
theorem phase_start {s : Session σ τ} (watch : Watch) (now : Instant) {state : String}
    (hstart : s.table.startState = .ok state) :
    (s.start watch now).1.task.phase ≠ .notStarted := by
  have htrace : ((s.enterStart now state).enterLive state none).1.trace =
      (s.enterStart now state).trace := by simp
  have hphase : ((s.enterStart now state).enterLive state none).1.task.phase = .running :=
    (phase_of_trace htrace).trans (congrArg Trace.phase (s.trace_enterStart now state))
  have hcurrent : ((s.enterStart now state).enterLive state none).1.task.current = some state :=
    (current_of_trace htrace).trans (congrArg Trace.current (s.trace_enterStart now state))
  rw [start_eq watch now hstart]
  generalize (s.enterStart now state).enterLive state none = entered at hphase hcurrent ⊢
  have hstarted : entered.1.task.phase ≠ .notStarted := by rw [hphase]; nofun
  obtain ⟨s', _ | trouble⟩ := entered
  · exact (goOn_changes watch now hphase hcurrent).started hstarted
  · simp only [settleStart]
    split
    · exact hstarted
    · exact (goToError_changes now (s := s'.note trouble) _ hphase hcurrent).started hstarted

/-- A step that does not start a task leaves it as it was. -/
theorem stepSeeing_of_notStarted {s : Session σ τ} {watch : Watch} {now : Instant}
    (h : (s.stepSeeing watch now).1.task.phase = .notStarted) : (s.stepSeeing watch now).1 = s := by
  have hfresh : s.task.phase = .notStarted := by
    by_contra hstarted
    exact (s.stepSeeing_changes watch now).started hstarted h
  have hongoing : s.isComplete = false := isComplete_of_phase hfresh
  cases hsignal : s.signal? with
  | some x =>
    have hphase := (stepSeeing_terminated hongoing hsignal watch now).phase
    rw [h] at hphase
    cases hphase
  | none =>
    cases hfree : watch .atStart s.paused with
    | true =>
      rw [stepSeeing_held hongoing hsignal hfree]
      rfl
    | false =>
      have hstep : s.stepSeeing watch now = s.start watch now :=
        stepSeeing_start hongoing hsignal hfree hfresh
      rw [hstep] at h ⊢
      cases hstart : s.table.startState with
      | ok state => exact absurd h (phase_start watch now hstart)
      | error e =>
        unfold start
        rw [hstart]

/-- While a task runs it is in a state, whatever changes. -/
theorem current_act {s : Session σ τ} (h : s.task.phase = .running → s.task.current ≠ none)
    (a : Action τ) : (s.act a).task.phase = .running → (s.act a).task.current ≠ none := by
  show (s.course [a]).task.phase = .running → (s.course [a]).task.current ≠ none
  refine trace_induction (P := fun tr => tr.phase = .running → tr.current ≠ none) h
    (fun s' tr _ hs hturns => ?_) fun _ _ _ htr => htr
  cases hturns with
  | same => exact hs
  | started | moved | signalled => exact fun _ => nofun
  | stopped phase ongoing terminal =>
    rintro rfl
    cases terminal

/-- The task of a session stays in its place. -/
theorem placed_act {s : Session σ τ} (h : s.task.Placed) (a : Action τ) :
    (s.act a).task.Placed := by
  refine ⟨fun hphase => ?_, current_act h.running a⟩
  cases a with
  | step watch now =>
    have heq : s.act (.step watch now) = s := stepSeeing_of_notStarted hphase
    rw [heq] at hphase ⊢
    exact h.fresh hphase
  | hold | send | simulate | stopSimulating => exact h.fresh hphase
  | clearCount state value =>
    rcases s.clearCount_act state value with heq | ⟨line, heq⟩ <;> rw [heq] at hphase ⊢ <;>
      exact h.fresh hphase

/-- A task that is in a state stays in one. -/
theorem current_course {s : Session σ τ} (h : s.task.current ≠ none) (as : List (Action τ)) :
    (s.course as).task.current ≠ none := by
  refine trace_induction (P := fun tr => tr.current ≠ none) h (fun s' tr _ hs hturns => ?_)
    fun _ _ _ htr => htr
  cases hturns with
  | same | stopped => exact hs
  | started | moved | signalled => nofun

theorem placed_course {s : Session σ τ} (h : s.task.Placed) (as : List (Action τ)) :
    (s.course as).task.Placed := by
  induction as generalizing s with
  | nil => exact h
  | cons a rest ih => exact ih (placed_act h a)

end Session

/-! ## Entering the first state once -/

/-- How many states events enter, but for those that a transition leads to. -/
def Event.startsAmong (events : List Event) : Int :=
  events.countP (·.entered?.isSome) - events.countP (·.entered?.isNone)

/-- How often a task was started. -/
def Recording.starts (r : Recording) : Int :=
  Event.startsAmong r.events

theorem Event.startsAmong_append (es fs : List Event) :
    startsAmong (es ++ fs) = startsAmong es + startsAmong fs := by
  simp only [startsAmong, List.countP_append]
  omega

namespace Trace

/-- How often a trace was started: `n` times before it is in a state, and then once more. -/
def Started (n : Int) (tr : Trace) : Prop :=
  if tr.current = none then tr.phase ≠ .running ∧ Event.startsAmong tr.events = n
  else tr.phase ≠ .notStarted ∧ Event.startsAmong tr.events = n + 1

/-- Whatever turns a trace, it is started once at most. -/
theorem Started.turns {σ τ : Type} {s : Session σ τ} {n : Int} {tr : Trace}
    (h : s.trace.Started n) (hturns : s.Turns tr) : tr.Started n := by
  have hcurrent : s.trace.current = s.task.current := rfl
  have hphase : s.trace.phase = s.task.phase := rfl
  cases hturns with
  | same => exact h
  | started now state ongoing fresh start =>
    -- a task that starts is in no state yet
    have hnone : s.trace.current = none := by
      by_contra hsome
      rw [Started, if_neg hsome] at h
      exact fresh.elim h.1 hsome
    rw [Started, if_pos hnone] at h
    refine ⟨nofun, ?_⟩
    show Event.startsAmong (s.trace.events ++ [_]) = _
    rw [Event.startsAmong_append, h.2]
    rfl
  | moved now m allowed =>
    have hsome : s.trace.current ≠ none := by rw [hcurrent, allowed.current]; nofun
    rw [Started, if_neg hsome] at h
    refine ⟨h.1, ?_⟩
    -- the transition and the state that it enters make up for each other
    rw [move_events, Event.startsAmong_append, h.2]
    exact Int.add_zero _
  | stopped phase ongoing terminal =>
    unfold Started at h ⊢
    show if s.trace.current = none then _ else _
    split
    · next hnone =>
      rw [if_pos hnone] at h
      exact ⟨(by rintro rfl; cases terminal), h.2⟩
    · next hsome =>
      rw [if_neg hsome] at h
      exact ⟨(by rintro rfl; cases terminal), h.2⟩
  | signalled now ongoing started block =>
    have hsome : s.trace.current ≠ none := by
      intro hnone
      rw [Started, if_pos hnone] at h
      exact h.1 (Session.phase_eq_running ongoing started)
    rw [Started, if_neg hsome] at h
    refine ⟨nofun, ?_⟩
    -- so do the signal and the state that it leads to
    show Event.startsAmong ((s.trace.events ++ [_]) ++ [_]) = _
    rw [Event.startsAmong_append, Event.startsAmong_append, h.2, Int.add_assoc]
    exact Int.add_zero _

end Trace

namespace Session

variable {σ τ : Type} [Supply τ]

/-- A task is started when it gets into a state for the first time, and never again. -/
theorem starts_course {s : Session σ τ} (hplaced : s.task.Placed) (as : List (Action τ)) :
    (s.course as).task.recording.starts = s.task.recording.starts +
      if s.task.current = none ∧ (s.course as).task.current ≠ none then 1 else 0 := by
  have hcourse : ∀ n, s.trace.Started n → (s.course as).trace.Started n := fun n hfirst =>
    trace_induction hfirst (fun _ _ _ hs hturns => hs.turns hturns) fun _ _ _ htr => htr
  by_cases hnone : s.task.current = none
  · have hfirst : s.trace.Started s.task.recording.starts := by
      rw [Trace.Started, if_pos (show s.trace.current = none from hnone)]
      exact ⟨fun hrunning => hplaced.running hrunning hnone, rfl⟩
    have hlast := hcourse _ hfirst
    rw [Trace.Started] at hlast
    by_cases hlater : (s.course as).task.current = none
    · rw [if_pos (show (s.course as).trace.current = none from hlater)] at hlast
      rw [if_neg fun h => h.2 hlater, Int.add_zero]
      exact hlast.2
    · rw [if_neg (show (s.course as).trace.current ≠ none from hlater)] at hlast
      rw [if_pos ⟨hnone, hlater⟩]
      exact hlast.2
  · -- the one start has been already
    have hsome : s.trace.current ≠ none := hnone
    have hfirst : s.trace.Started (s.task.recording.starts - 1) := by
      rw [Trace.Started, if_neg hsome]
      exact ⟨fun hfresh => hnone (hplaced.fresh hfresh).1, (Int.sub_add_cancel _ 1).symm⟩
    have hlater : (s.course as).trace.current ≠ none := current_course hnone as
    have hlast := hcourse _ hfirst
    rw [Trace.Started, if_neg hlater, Int.sub_add_cancel] at hlast
    rw [if_neg fun h => hnone h.1, Int.add_zero]
    exact hlast.2

/-! ## Sessions that come about -/

/-- The sessions that come about: one is built for a new task or for a task that another session
has left, and anything is done to it. -/
inductive Reached : Session σ τ → Prop
  | built {u : Setup σ τ} {now : Instant} {s : Session σ τ} (new : u.stored = none)
      (build : (u.build now).2 = .ok s) : Reached s
  | resumed {s₀ : Session σ τ} (before : Reached s₀) {u : Setup σ τ} {now : Instant}
      {s : Session σ τ} (stored : u.stored = some s₀.task) (build : (u.build now).2 = .ok s) :
      Reached s
  | acted {s : Session σ τ} (before : Reached s) (a : Action τ) : Reached (s.act a)

theorem Reached.placed {s : Session σ τ} (h : s.Reached) : s.task.Placed := by
  induction h with
  | built new build =>
    refine Setup.placed_build (fun t ht => ?_) build
    cases new.symm.trans ht
  | resumed _ stored build ih =>
    refine Setup.placed_build (fun t ht => ?_) build
    cases stored.symm.trans ht
    exact ih
  | acted _ a ih => exact placed_act ih a

end Session
end TaskTable
