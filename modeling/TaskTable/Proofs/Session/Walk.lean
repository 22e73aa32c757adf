import TaskTable.Proofs.Session.Limits

/-!
# Recordings are walks

The events of a recording form a walk along the table: they begin with the state in which a task
starts and go on in pairs, a transition out of the state before it and the state that it leads to.
`Walk` is that property, said of a list of events and a table alone, and `recording_walk` says that
every course of a new task records one, and that the current state agrees with it. The visits of
states agree with it too, as long as the handler leaves their number alone.
-/

namespace TaskTable

/-! ## Walks -/

/-- What a selector may have asked for where a value is taken: the value itself, or, where `!` is
taken, another value that leads nowhere or to a limited transition. -/
def Block.AskedFor (b : Block) (value : String) : Option String → Prop
  | none => True
  | some r => value = Names.error ∧ r ≠ Names.error ∧ ∀ e, b.next? r = some e → 0 < e.max

/-- The selector method that is recorded where a state is left. -/
def Table.methodOf (t : Table) (state : String) : String :=
  (t.block? state).elim Names.emptyTransition (·.method)

/-- The ways in which a table lets a task leave the state `here`: the transition, and the state that
it leads to. -/
inductive Table.Hop (t : Table) (here : String) : Event → Event → Prop
  /-- The value of a selector takes its transition. -/
  | taken {b : Block} {e : Transition} {value : String} {requested : Option String}
      {now now' : Instant} (block : t.block? here = some b) (next : b.next? value = some e)
      (asked : b.AskedFor value requested) :
      Hop t here (.transition here b.method value requested .selector now)
        (.state e.target e.exec now')
  /-- There is no error route, or it has a limit, and the task goes to `failure`. -/
  | refused {b : Block} {requested : Option String} {now now' : Instant}
      (block : t.block? here = some b) (limited : ∀ e, b.next? Names.error = some e → 0 < e.max)
      (asked : b.AskedFor Names.error requested) :
      Hop t here (.transition here b.method Names.error requested .selector now)
        (.state Names.failure true now')
  /-- An error in a state takes its error route. -/
  | recovered {b : Block} {e : Transition} {now now' : Instant} (block : t.block? here = some b)
      (next : b.next? Names.error = some e) :
      Hop t here (.transition here b.method Names.error none .fallback now)
        (.state e.target e.exec now')
  /-- An error in a state leads to `failure`. -/
  | failed {now now' : Instant} :
      Hop t here (.transition here (t.methodOf here) Names.error none .fallback now)
        (.state Names.failure true now')

/-- The walks along a table, with the state in which each ends and whether it is closed: nothing
follows on a signal. -/
inductive Table.Walk (t : Table) : List Event → (here : String) → (closed : Bool) → Prop
  | start {state : String} {now : Instant} (first : t.startState = .ok state) :
      Walk t [.state state true now] state false
  | hop {events : List Event} {here there : String} {e : Event} {executed : Bool} {now : Instant}
      (walk : Walk t events here false) (hop : t.Hop here e (.state there executed now)) :
      Walk t (events ++ [e, .state there executed now]) there false
  | signal {events : List Event} {here : String} {now now' : Instant}
      (walk : Walk t events here false) :
      Walk t (events ++
        [.transition here (t.methodOf here) Names.terminateRequested none .signal now,
          .state Names.terminate true now']) Names.terminate true

/-! ## Moves are hops -/

namespace Session

variable {σ τ : Type}

theorem max_pos_of_isExhausted {s : Session σ τ} {t : Transition} (h : s.isExhausted t = true) :
    0 < t.max := by
  simp only [isExhausted, Bool.and_eq_true, bne_iff_ne] at h
  exact Nat.pos_of_ne_zero h.1

/-- Every warranted move is a hop of the table. -/
theorem Warrants.hop {s : Session σ τ} {m : Move} (h : s.Warrants m) (now : Instant) :
    s.table.Hop m.origin (.transition m.origin m.method m.value m.requested m.kind now)
      (.state m.transition.target m.transition.exec now) := by
  cases h with
  | value b hb hmethod hkind hrequested _ hnext _ =>
    rw [hmethod, hkind, hrequested]
    exact .taken hb hnext trivial
  | error b hb hmethod hkind hvalue hrequested hroute =>
    have hasked : b.AskedFor Names.error m.requested := by
      cases hr : m.requested with
      | none => trivial
      | some r =>
        obtain ⟨hne, hexhausted⟩ := hrequested r hr
        exact ⟨rfl, hne, fun e he => max_pos_of_isExhausted (hexhausted e he)⟩
    rw [hmethod, hkind, hvalue, hroute]
    -- the declared route, or the way to `failure` where there is none or it is exhausted
    unfold errorRoute
    cases hnext : b.next? Names.error with
    | none => exact .refused hb (fun e he => by rw [hnext] at he; cases he) hasked
    | some t =>
      dsimp only
      split
      · next hx =>
        refine .refused hb (fun e he => ?_) hasked
        rw [hnext] at he
        cases he
        exact max_pos_of_isExhausted hx
      · exact .taken hb hnext hasked
  | fallback hkind hmethod hvalue hrequested hroute =>
    rw [hmethod, hkind, hvalue, hrequested]
    rcases hroute with h | ⟨b, hb, hroute⟩
    · rw [h]
      exact .failed
    · rcases s.errorRoute_cases b with h | ⟨hnext, -⟩
      · rw [hroute, h]
        exact .failed
      · have hmethod : s.methodOf m.origin = b.method := by rw [methodOf, hb]; rfl
        rw [hroute, hmethod]
        exact .recovered hb hnext

end Session

/-! ## Traces along a walk -/

/-- The states in the order in which a trace entered them. -/
def Trace.visited (tr : Trace) : List String :=
  tr.events.filterMap Event.entered?

/-- A trace that has not begun, or whose events are a walk that ends in the current state. -/
inductive Trace.OnWalk (t : Table) (tr : Trace) : Prop
  | idle (events : tr.events = []) (current : tr.current = none) (phase : tr.phase ≠ .running)
  | walking (here : String) (closed : Bool) (walk : t.Walk tr.events here closed)
      (current : tr.current = some here) (phase : tr.phase ≠ .notStarted)
      (ended : closed = true → tr.phase.isTerminal = true)

/-- The current state is the last one entered. -/
def Trace.InStep (tr : Trace) : Prop :=
  tr.current = tr.visited.getLast?

namespace Trace

theorem inStep_fresh : InStep .fresh :=
  rfl

theorem onWalk_fresh (t : Table) : OnWalk t .fresh :=
  .idle rfl rfl (by decide)

theorem visited_arrive (tr : Trace) (now : Instant) (state : String) (executed : Bool) :
    (tr.arrive now state executed).visited = tr.visited ++ [state] := by
  simp [visited, arrive, Event.entered?]

/-- A state that is arrived at is the last one entered. -/
theorem inStep_arrive (tr : Trace) (now : Instant) (state : String) (executed : Bool) :
    (tr.arrive now state executed).InStep := by
  rw [InStep, visited_arrive, List.getLast?_concat]
  rfl

theorem InStep.turns {σ τ : Type} {s : Session σ τ} {tr : Trace} (h : s.trace.InStep)
    (hturn : s.Turns tr) : tr.InStep := by
  cases hturn with
  | same | stopped => exact h
  | started now state => exact inStep_arrive _ now state true
  | moved now m => exact inStep_arrive _ now m.transition.target m.transition.exec
  | signalled now => exact inStep_arrive _ now Names.terminate true

/-- Whatever turns a trace keeps it on a walk: a start begins one, a move or a signal leads it on,
and the end of the task leaves it where it is. -/
theorem OnWalk.turns {σ τ : Type} {s : Session σ τ} {tr : Trace} (h : s.trace.OnWalk s.table)
    (hturn : s.Turns tr) : tr.OnWalk s.table := by
  cases hturn with
  | same => exact h
  | started now state ongoing fresh start =>
    cases h with
    | idle events current phase =>
      -- a task that starts has recorded nothing yet
      have hevents : ((s.trace.stop .running).arrive now state true).events =
          [.state state true now] := by
        show s.trace.events ++ _ = _
        rw [events, List.nil_append]
      refine .walking state false ?_ rfl (fun h => by cases h) (fun h => by cases h)
      rw [hevents]
      exact .start start
    | walking here closed walk current phase ended =>
      rcases fresh with h | h
      · exact absurd h phase
      · cases current.symm.trans h
  | stopped phase ongoing terminal =>
    cases h with
    | idle events current _ => exact .idle events current (by rintro rfl; cases terminal)
    | walking here closed walk current _ _ =>
      exact .walking here closed walk current (by rintro rfl; cases terminal) fun _ => terminal
  | moved now m allowed =>
    have hrunning : s.trace.phase = .running := allowed.running
    cases h with
    | idle events current phase => exact absurd hrunning phase
    | walking here closed walk current phase ended =>
      cases closed with
      -- a walk is closed only where its task has ended
      | true => rw [hrunning] at ended; cases ended rfl
      | false =>
        cases current.symm.trans allowed.current
        have hphase : (s.trace.move now m).phase ≠ .notStarted := by
          rw [move_phase, hrunning]
          decide
        refine .walking m.transition.target false ?_ rfl hphase (fun h => by cases h)
        rw [move_events]
        exact .hop walk (allowed.warrants.hop now)
  | signalled now ongoing started block =>
    have hrunning : s.trace.phase = .running := Session.phase_eq_running ongoing started
    cases h with
    | idle events current phase => exact absurd hrunning phase
    | walking here closed walk current phase ended =>
      cases closed with
      | true => rw [hrunning] at ended; cases ended rfl
      | false =>
        have hcurrent : s.task.current = some here := current
        refine .walking Names.terminate true ?_ rfl (fun h => by cases h) (fun _ => rfl)
        rw [hcurrent]
        show s.table.Walk ((s.trace.events ++ [_]) ++ [_]) _ _
        rw [List.append_assoc]
        exact .signal walk

end Trace

namespace Session

variable {σ τ : Type} [Supply τ]

theorem onWalk_course {s : Session σ τ} (h : s.trace.OnWalk s.table) (as : List (Action τ)) :
    (s.course as).trace.OnWalk s.table := by
  refine trace_induction h (fun s' tr htable hs hturn => ?_) fun tr line _ hs => ?_
  · rw [← htable] at hs ⊢
    exact hs.turns hturn
  · cases hs with
    | idle events current phase => exact .idle events current phase
    | walking here closed walk current phase ended =>
      exact .walking here closed walk current phase ended

theorem inStep_course {s : Session σ τ} (h : s.trace.InStep) (as : List (Action τ)) :
    (s.course as).trace.InStep :=
  trace_induction h (fun _ _ _ hs hturn => hs.turns hturn) fun _ _ _ hs => hs

end Session

/-! ## Visits -/

/-- Whether a handler leaves the number of visits as it finds it. -/
def Handler.KeepsVisits {σ : Type} (h : Handler σ) : Prop :=
  ∀ m v d, (h.enter m v d).2.1.visits = d.visits ∧
    ∀ method, (h.select m method v d).2.1.visits = d.visits

namespace Session

variable {σ τ : Type} {s : Session σ τ}

/-- The visits of each state are the times that it was entered, as far as 32 bits can count. -/
def VisitsInStep (s : Session σ τ) : Prop :=
  ∀ state, (s.task.context state).visits = s.trace.visited.count state % Number.twoPow 32

namespace VisitsInStep

theorem of_same {s' : Session σ τ} (h : s.VisitsInStep)
    (hvisits : ∀ state, (s'.task.context state).visits = (s.task.context state).visits)
    (hvisited : s'.trace.visited = s.trace.visited) : s'.VisitsInStep := fun state => by
  rw [hvisits, hvisited, h state]

/-- A state that is arrived at has one more visit. -/
theorem arrive (h : s.VisitsInStep) (now : Instant) (state : String) (executed : Bool) :
    (s.arrive now state executed).VisitsInStep := by
  intro st
  rw [trace_arrive, Trace.visited_arrive, List.count_append, List.count_singleton]
  show (((s.task.contexts.insert state ((s.task.context state).visit now)).getD st {}).visits) = _
  by_cases hst : st = state
  · subst hst
    rw [SortedMap.getD, SortedMap.get?_insert_self, beq_self_eq_true, if_pos rfl,
      ← Nat.mod_add_mod, ← h st]
    rfl
  · have hne : (state == st) = false := by simpa using fun e => hst e.symm
    rw [SortedMap.getD, SortedMap.get?_insert_of_ne _ hst, hne]
    exact h st

/-- A handler that keeps the number of visits leaves all states with the visits that they had. -/
theorem afterCall (h : s.VisitsInStep) (hkeeps : s.handler.KeepsVisits) {state : String}
    {memory : σ} {desk : Desk} (hleft : s.HandsBack state memory desk) :
    (s.afterCall state memory desk).VisitsInStep := by
  have hdesk : desk.visits = (s.task.context state).visits := by
    cases hleft with
    | entered cause answer call =>
      have hkept := (hkeeps s.memory (s.visit state cause) (s.desk state)).1
      rwa [call] at hkept
    | selected method answer call =>
      have hkept := (hkeeps s.memory (s.visit state none) (s.desk state)).2 method
      rwa [call] at hkept
  refine h.of_same (fun st => ?_) rfl
  show ((s.task.contexts.insert state desk.toStateContext).getD st {}).visits = _
  by_cases hst : st = state
  · rw [hst, SortedMap.getD, SortedMap.get?_insert_self, Option.getD_some, hdesk]
  · rw [SortedMap.getD, SortedMap.get?_insert_of_ne _ hst]
    rfl

theorem enterLive (h : s.VisitsInStep) (hkeeps : s.handler.KeepsVisits) (state : String)
    (cause : Option String) : (s.enterLive state cause).1.VisitsInStep := by
  rcases s.enterLive_eq state cause with heq | ⟨-, memory, desk, hleft, heq⟩ <;> rw [heq]
  · exact h
  · exact h.afterCall hkeeps hleft

theorem depart (h : s.VisitsInStep) (now : Instant) (m : Move) :
    (s.depart now m).VisitsInStep := by
  refine h.of_same (fun state => ?_) ?_
  · unfold Session.depart
    split <;> rfl
  · rw [trace_depart]
    simp [Trace.visited, Trace.depart, Event.entered?]

theorem terminate (h : s.VisitsInStep) (hkeeps : s.handler.KeepsVisits) (now : Instant)
    (reason : String) : (s.terminate now reason).1.VisitsInStep := by
  unfold Session.terminate
  dsimp only
  split
  · exact h.enterLive hkeeps _ _
  · split
    · have hrecorded : ∀ e : Event, e.entered? = none → (s.record e).VisitsInStep := fun e he =>
        h.of_same (fun _ => rfl) (by simp [Trace.visited, Trace.record, he])
      exact ((hrecorded _ rfl).arrive now Names.terminate true).enterLive hkeeps _ _
    · exact h

/-- Only an arrival adds a visit, where it adds the state to those that were entered. -/
theorem change {s' : Session σ τ} (h : s.VisitsInStep) (hkeeps : s.handler.KeepsVisits)
    (hchange : Change s s') : s'.VisitsInStep := by
  cases hchange with
  | called state memory desk live left => exact h.afterCall hkeeps left
  | supplied | noted | finished => exact h
  | started now state =>
    have hmarked : (s.updateTask fun t =>
        { t with phase := .running, recording := t.recording.markStarted now }).VisitsInStep := h
    exact hmarked.arrive now state true
  | moved now m allowed =>
    have harrived := (h.depart now m).arrive now m.transition.target m.transition.exec
    unfold move
    dsimp only
    split <;> exact harrived
  | halted now state e running current missing builtin =>
    obtain ⟨set, exit, phase, -, heq⟩ := goOnWithoutBlock_builtin now s e builtin
    rw [heq]
    exact h
  | terminated now signal ongoing pending =>
    have hreceived : ({ s with queue := s.queue.consume s.task.id signal.id } :
        Session σ τ).VisitsInStep := h
    exact hreceived.terminate hkeeps now signal.text

variable [Supply τ]

theorem course (h : s.VisitsInStep) (hkeeps : s.handler.KeepsVisits) (as : List (Action τ)) :
    (s.course as).VisitsInStep := by
  refine (course_induction (P := fun s' => s'.handler = s.handler ∧ s'.VisitsInStep) ⟨rfl, h⟩
    (fun s₁ s₂ hchange hs => ?_) fun s' a _ hstep hs => ?_).2
  · exact ⟨hchange.frame.2.trans hs.1, hs.2.change (hs.1 ▸ hkeeps) hchange⟩
  · refine ⟨(s'.handler_act a).trans hs.1, ?_⟩
    cases a with
    | step watch now => exact absurd rfl (hstep watch now)
    | hold | send | simulate | stopSimulating => exact hs.2
    | clearCount state value =>
      rcases s'.clearCount_act state value with heq | ⟨line, heq⟩ <;> rw [heq] <;> exact hs.2

end VisitsInStep

/-! ## Recordings of new tasks -/

variable [Supply τ]

/-- The recording of a new task is empty or a walk along its table, along any course, and the
current state is the last one entered. A handler is lent the context of its state and may replace
it, the number of visits included. If it leaves this number alone, each state has been visited as
often as it was entered, as far as 32 bits can count. -/
theorem recording_walk {u : Setup σ τ} (hnew : u.stored = none) {now : Instant} {s : Session σ τ}
    (hbuild : (u.build now).2 = .ok s) (as : List (Action τ)) :
    ((s.course as).task.recording.events = [] ∨
      ∃ here closed, u.table.Walk (s.course as).task.recording.events here closed) ∧
    (s.course as).task.current = (s.course as).task.recording.visited.getLast? ∧
    (u.handler.KeepsVisits → ∀ state, ((s.course as).task.context state).visits =
      (s.course as).task.recording.visited.count state % Number.twoPow 32) := by
  obtain ⟨rfl, -⟩ := u.eq_newSession hnew hbuild
  have hwalk : ((u.newSession now).course as).trace.OnWalk u.table :=
    onWalk_course (s := u.newSession now) (Trace.onWalk_fresh u.table) as
  have hstep : ((u.newSession now).course as).trace.InStep :=
    inStep_course (s := u.newSession now) Trace.inStep_fresh as
  have hvisits : (u.newSession now).VisitsInStep := fun _ => rfl
  refine ⟨?_, hstep, fun hkeeps => hvisits.course hkeeps as⟩
  cases hwalk with
  | idle events => exact .inl events
  | walking here closed walk => exact .inr ⟨here, closed, walk⟩

/-- A task that polls twice and is then refused has walked from `poll` to `failure`, and visited
`poll` as often as it entered it. -/
theorem recording_walk_pollAgain :
    (pollAgain.build ⟨0, 0⟩).2 = .ok (pollAgain.newSession ⟨0, 0⟩) ∧
      ((pollAgain.newSession ⟨0, 0⟩).course
        (List.replicate 3 (.step .steady ⟨0, 0⟩))).task.current = some Names.failure ∧
      ((pollAgain.newSession ⟨0, 0⟩).course
        (List.replicate 3 (.step .steady ⟨0, 0⟩))).task.recording.visited.getLast? =
          some Names.failure ∧
      (((pollAgain.newSession ⟨0, 0⟩).course
        (List.replicate 3 (.step .steady ⟨0, 0⟩))).task.context "poll").visits = 3 := by
  have hbuild : (pollAgain.build ⟨0, 0⟩).2 = .ok (pollAgain.newSession ⟨0, 0⟩) := rfl
  have hkeeps : pollAgain.handler.KeepsVisits := fun _ _ _ => ⟨rfl, fun _ => rfl⟩
  obtain ⟨-, hcurrent, hvisits⟩ :=
    recording_walk rfl hbuild (List.replicate 3 (.step .steady ⟨0, 0⟩))
  exact ⟨hbuild, rfl, hcurrent.symm, hvisits hkeeps "poll"⟩

/-- A task that polls under a handler that replaces the context of each state it is called in. -/
def pollForgets : Setup Unit ScriptedSupply :=
  { pollAgain with
    handler :=
      { pollAgain.handler with enter := fun m _ d => (m, { d with visits := 0 }, .ok ()) } }

/-- With such a handler the visits say nothing about the walk: `poll` was entered three times. -/
example :
    let last := (pollForgets.newSession ⟨0, 0⟩).course (List.replicate 2 (.step .steady ⟨0, 0⟩))
    last.task.recording.visited = ["poll", "poll", "poll"] ∧
      (last.task.context "poll").visits = 0 := by
  decide

end Session
end TaskTable
