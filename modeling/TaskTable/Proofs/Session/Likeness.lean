import Mathlib.Data.List.Forall2
import TaskTable.Proofs.Session.Course
import TaskTable.Proofs.Session.Past

/-!
# Sessions that are alike

Two sessions can have handlers, supplies, queues and pasts of their own and different clocks, and
still go the same way, as long as no step can tell them apart. A `Likeness` says what has to agree
between them, and `Alike` is kept by every operation of a session, every step and every course,
which all give the same results.
-/

namespace TaskTable

/-- What two supplies have in common for good: a relation in which they give the same values. -/
structure Supply.Accord (τ τ' : Type) [Supply τ] [Supply τ'] where
  agree : τ → τ' → Prop
  next : ∀ {x x'}, agree x x' → ∀ state method,
    agree (Supply.next x state method).1 (Supply.next x' state method).1 ∧
      (Supply.next x' state method).2 = (Supply.next x state method).2
  rewind : ∀ {x x'}, agree x x' → agree (Supply.rewind x) (Supply.rewind x')

/-- Supplies that are the same. -/
def Supply.Accord.same {τ : Type} [Supply τ] : Supply.Accord τ τ where
  agree x x' := x' = x
  next := by
    rintro x _ rfl state method
    exact ⟨rfl, rfl⟩
  rewind := by
    rintro x _ rfl
    rfl

/-- What two queues have in common for good: a relation in which the signals for the task with the
given id are the same but for their numbers. -/
structure SignalQueue.Accord (id : String) where
  agree : SignalQueue → SignalQueue → Prop
  send : ∀ {q q'}, agree q q' → ∀ task reason, agree (q.send task reason) (q'.send task reason)
  oldest : ∀ {q q'}, agree q q' → (q'.oldest? id).map Signal.text = (q.oldest? id).map Signal.text
  consume : ∀ {q q'}, agree q q' → ∀ {x x'}, q.oldest? id = some x → q'.oldest? id = some x' →
    agree (q.consume id x.id) (q'.consume id x'.id)

/-- Queues that are the same. -/
def SignalQueue.Accord.same (id : String) : SignalQueue.Accord id where
  agree q q' := q' = q
  send := by
    rintro q _ rfl task reason
    rfl
  oldest := by
    rintro q _ rfl
    rfl
  consume := by
    rintro q _ rfl x x' hx hx'
    cases hx.symm.trans hx'
    rfl

/-- Two calls that leave memories in a relation and desks that are the same up to the clock, and
give the same answer. -/
structure LeftAlike (c : Clock) {σ σ' α : Type} (memory : σ → σ' → Prop) (left : σ × Desk × α)
    (left' : σ' × Desk × α) : Prop where
  memory : memory left.1 left'.1
  desk : left'.2.1.retime c = left.2.1.retime c
  answer : left'.2.2 = left.2.2

/-- What agrees between two sessions: what their supplies, their queues and their pasts have in
common, and the relation in which their memories stand, so that handlers that find the same desks up
to the clock leave the same ones. The queues agree in all, and the pasts up to the clock, unless it
is said otherwise. -/
structure Likeness (σ σ' τ τ' : Type) [Supply τ] [Supply τ'] where
  /-- The clock of the second session. -/
  clock : Clock
  id : String
  handler : Handler σ
  handler' : Handler σ'
  memory : σ → σ' → Prop
  supply : Supply.Accord τ τ'
  queue : SignalQueue.Accord id := .same id
  past : Past.Accord clock := .retimed clock
  catalog : handler'.catalog = handler.catalog
  enter : ∀ {m m'}, memory m m' → ∀ {v v' d d'}, v'.retime clock = v.retime clock →
    d'.retime clock = d.retime clock →
      LeftAlike clock memory (handler.enter m v d) (handler'.enter m' v' d')
  select : ∀ {m m'}, memory m m' → ∀ method {v v' d d'}, v'.retime clock = v.retime clock →
    d'.retime clock = d.retime clock →
      LeftAlike clock memory (handler.select m method v d) (handler'.select m' method v' d')

/-- By the same clock, what is the same up to the clock is the same. -/
theorem Visit.eq_of_retime_same {v v' : Visit} (h : v'.retime .same = v.retime .same) : v' = v := by
  rwa [v.retime_same, v'.retime_same] at h

theorem Desk.eq_of_retime_same {d d' : Desk} (h : d'.retime .same = d.retime .same) : d' = d := by
  rwa [d.retime_same, d'.retime_same] at h

/-- Sessions with the same handler that agree in all. -/
def Likeness.same {σ τ : Type} [Supply τ] (handler : Handler σ) (id : String) :
    Likeness σ σ τ τ where
  clock := .same
  id := id
  handler := handler
  handler' := handler
  memory m m' := m' = m
  supply := .same
  catalog := rfl
  enter := by
    rintro m _ rfl v v' d d' hvisit hdesk
    rw [Visit.eq_of_retime_same hvisit, Desk.eq_of_retime_same hdesk]
    exact ⟨rfl, rfl, rfl⟩
  select := by
    rintro m _ rfl method v v' d d' hvisit hdesk
    rw [Visit.eq_of_retime_same hvisit, Desk.eq_of_retime_same hdesk]
    exact ⟨rfl, rfl, rfl⟩

/-- How the supplies of two sessions stand to one another: neither has one, or both do. -/
inductive Supplied {τ τ' : Type} (r : τ → τ' → Prop) : Option τ → Option τ' → Prop
  | none : Supplied r none none
  | some {x : τ} {x' : τ'} (alike : r x x') : Supplied r (some x) (some x')

namespace Supplied

variable {τ τ' : Type}

theorem isSome_eq {r : τ → τ' → Prop} {x : Option τ} {x' : Option τ'} (h : Supplied r x x') :
    x'.isSome = x.isSome := by
  cases h <;> rfl

theorem of_map (f : τ → τ') (x : Option τ) : Supplied (fun x x' => x' = f x) x (x.map f) := by
  cases x with
  | none => exact .none
  | some x => exact .some rfl

theorem eq_map {f : τ → τ'} {x : Option τ} {x' : Option τ'}
    (h : Supplied (fun x x' => x' = f x) x x') : x' = x.map f := by
  cases h with
  | none => rfl
  | some alike => exact congrArg Option.some alike

/-- Supplies that have to be the same. -/
theorem refl (x : Option τ) : Supplied (fun x x' => x' = x) x x := by
  cases x with
  | none => exact .none
  | some x => exact .some rfl

theorem eq {x x' : Option τ} (h : Supplied (fun x x' => x' = x) x x') : x' = x := by
  cases h with
  | none => rfl
  | some alike => exact congrArg Option.some alike

end Supplied

namespace Session

variable {σ σ' τ τ' : Type}

/-- The session as it is with another clock, handler, memory, supply and queue. -/
def recast (s : Session σ τ) (c : Clock) (handler : Handler σ') (memory : σ')
    (supply : Option τ') (queue : SignalQueue) : Session σ' τ' where
  table := s.table
  handler := handler
  memory := memory
  task := s.task.retime c
  supply := supply
  queue := queue
  listening := s.listening
  paused := s.paused
  pauseWait := s.pauseWait
  reports := s.reports.map fun r => (r.1, c.millis r.2)
  troubles := s.troubles

/-- By the same clock, only what is replaced differs. -/
theorem recast_same (s : Session σ τ) (handler : Handler σ') (memory : σ') (supply : Option τ')
    (queue : SignalQueue) :
    s.recast .same handler memory supply queue =
      { table := s.table
        handler
        memory
        task := s.task
        supply
        queue
        listening := s.listening
        paused := s.paused
        pauseWait := s.pauseWait
        reports := s.reports
        troubles := s.troubles } := by
  have hreports : s.reports.map (fun r => (r.1, Clock.same.millis r.2)) = s.reports :=
    List.map_id' s.reports
  rw [recast, Task.retime_same, hreports]

theorem recast_same_self (s : Session σ τ) :
    s.recast .same s.handler s.memory s.supply s.queue = s := by
  rw [recast_same]

/-- A signal that a session sees is the oldest one for its task. -/
theorem oldest_of_signal {s : Session σ τ} {x : Signal} (h : s.signal? = some x) :
    s.queue.oldest? s.task.id = some x := by
  unfold signal? at h
  split at h
  · exact h
  · cases h

variable [Supply τ] [Supply τ']

/-- Two sessions that agree in all that a likeness asks for. -/
structure Alike (l : Likeness σ σ' τ τ') (s : Session σ τ) (s' : Session σ' τ') : Prop where
  table : s'.table = s.table
  handler : s.handler = l.handler ∧ s'.handler = l.handler'
  memory : l.memory s.memory s'.memory
  id : s.task.id = l.id ∧ s'.task.id = l.id
  phase : s'.task.phase = s.task.phase
  current : s'.task.current = s.task.current
  counts : s'.task.counts = s.task.counts
  contexts : s'.task.contexts.mapValues (StateContext.retime l.clock) =
    s.task.contexts.mapValues (StateContext.retime l.clock)
  exit : s'.task.exit = s.task.exit
  tableHash : s'.task.tableHash = s.task.tableHash
  past : l.past.agree s.past s'.past
  supply : Supplied l.supply.agree s.supply s'.supply
  queue : l.queue.agree s.queue s'.queue
  listening : s'.listening = s.listening
  paused : s'.paused = s.paused
  pauseWait : s'.pauseWait = s.pauseWait
  troubles : s'.troubles = s.troubles

/-- Two operations that leave sessions alike and give the same answer. -/
def AlikeIn (l : Likeness σ σ' τ τ') {α : Type} (o : Session σ τ × α) (o' : Session σ' τ' × α) :
    Prop :=
  Alike l o.1 o'.1 ∧ o'.2 = o.2

variable {l : Likeness σ σ' τ τ'} {s : Session σ τ} {s' : Session σ' τ'}

/-- A session is like the one that it is recast as. -/
theorem alike_recast {memory' : σ'} {supply' : Option τ'} {queue' : SignalQueue}
    (handler : s.handler = l.handler) (id : s.task.id = l.id)
    (memory : l.memory s.memory memory') (supply : Supplied l.supply.agree s.supply supply')
    (queue : l.queue.agree s.queue queue') (past : l.past.agree s.past (s.past.retime l.clock)) :
    Alike l s (s.recast l.clock l.handler' memory' supply' queue') where
  table := rfl
  handler := ⟨handler, rfl⟩
  memory := memory
  id := ⟨id, id⟩
  phase := rfl
  current := rfl
  counts := rfl
  contexts := SortedMap.mapValues_mapValues_self (StateContext.retime_retime l.clock) _
  exit := rfl
  tableHash := rfl
  past := past
  supply := supply
  queue := queue
  listening := rfl
  paused := rfl
  pauseWait := rfl
  troubles := rfl

/-! ## What alike sessions have in common -/

namespace Alike

/-- Two tasks that agree up to the clock, and have pasts that do, are the same up to the clock. -/
theorem task (h : Alike l s s') (hpast : s'.past = s.past.retime l.clock) :
    s'.task.retime l.clock = s.task.retime l.clock := by
  obtain ⟨table, handler, memory, task, supply, queue, listening, paused, wait, reports, ts⟩ := s'
  obtain ⟨id, phase, current, counts, contexts, timers, exit, versions, recording, hash, created⟩ :=
    task
  obtain ⟨-, -, -, hid, hphase, hcurrent, hcounts, hcontexts, hexit, hhash, -⟩ := h
  simp only [Session.past, Past.retime, Past.mk.injEq] at hpast
  obtain ⟨hcreated, hversions, hrecording, htimers, -⟩ := hpast
  dsimp only at *
  rw [Task.retime, hid.2.trans hid.1.symm, hphase, hcurrent, hcounts, hcontexts, hexit, hhash,
    hcreated, hversions, hrecording, htimers, Recording.retime_retime, Timers.retime_retime,
    l.clock.reading_reading]
  rfl

/-- Alike sessions whose pasts agree up to the clock are the same once both are recast. -/
theorem eq_recast (h : Alike l s s') (hpast : s'.past = s.past.retime l.clock)
    (handler : Handler σ') (memory : σ') (supply : Option τ') (queue : SignalQueue) :
    s'.recast l.clock handler memory supply queue =
      s.recast l.clock handler memory supply queue := by
  have htask := h.task hpast
  have hreports : s'.reports.map (fun r => (r.1, l.clock.millis r.2)) =
      s.reports.map fun r => (r.1, l.clock.millis r.2) := by
    rw [show s'.reports = s.reports.map _ from congrArg Past.reports hpast, List.map_map]
    simp only [Function.comp_def, l.clock.millis_millis]
  simp only [recast, Session.mk.injEq]
  exact ⟨h.table, trivial, trivial, htask, trivial, trivial, h.listening, h.paused, h.pauseWait,
    hreports, h.troubles⟩

/-- With one clock for both, the second of alike sessions is the first one recast. -/
theorem eq_recast_same (h : Alike l s s') (hclock : l.clock = .same)
    (hpast : s'.past = s.past.retime l.clock) :
    s' = s.recast .same l.handler' s'.memory s'.supply s'.queue := by
  have hrecast := h.eq_recast hpast s'.handler s'.memory s'.supply s'.queue
  rwa [hclock, s'.recast_same_self, h.handler.2] at hrecast

theorem isComplete (h : Alike l s s') : s'.isComplete = s.isComplete :=
  congrArg Phase.isTerminal h.phase

theorem isSimulating (h : Alike l s s') : s'.isSimulating = s.isSimulating :=
  h.supply.isSome_eq

theorem catalog (h : Alike l s s') : s'.handler.catalog = s.handler.catalog := by
  rw [h.handler.1, h.handler.2, l.catalog]

theorem timerOf (h : Alike l s s') (state : String) : s'.timerOf state = s.timerOf state := by
  unfold Session.timerOf
  rw [h.table]

theorem methodOf (h : Alike l s s') (state : String) : s'.methodOf state = s.methodOf state := by
  unfold Session.methodOf
  rw [h.table]

theorem context (h : Alike l s s') (state : String) :
    (s'.task.context state).retime l.clock = (s.task.context state).retime l.clock := by
  have hget := congrArg (SortedMap.getD · state {}) h.contexts
  have hempty : ∀ x : Option StateContext,
      (x.map (StateContext.retime l.clock)).getD {} = (x.getD {}).retime l.clock := by
    rintro (_ | x) <;> rfl
  simpa only [Task.context, SortedMap.getD, SortedMap.get?_mapValues, hempty] using hget

theorem isExhausted (h : Alike l s s') (t : Transition) : s'.isExhausted t = s.isExhausted t := by
  unfold Session.isExhausted Task.count
  rw [h.counts]

theorem completed (h : Alike l s s') (wait : Nat) : s'.completed wait = s.completed wait := by
  unfold Session.completed
  rw [h.phase, h.exit]

/-! ## Changing the task -/

theorem note (h : Alike l s s') (t : Trouble) : Alike l (s.note t) (s'.note t) :=
  { h with troubles := congrArg (· ++ [t]) h.troubles }

theorem record (h : Alike l s s') (e : Event) :
    Alike l (s.record e) (s'.record (e.retime l.clock)) :=
  { h with past := l.past.record h.past e }

theorem setExit (h : Alike l s s') (exit : Option Exit) :
    Alike l (s.updateTask fun t => { t with exit }) (s'.updateTask fun t => { t with exit }) :=
  { h with exit := rfl }

theorem setFailed (h : Alike l s s') (reason : Option Trouble) :
    Alike l (s.setFailed reason) (s'.setFailed reason) :=
  { h with exit := congrArg (fun exit => some (Option.getD exit _)) h.exit }

/-- The context of a state is set down by either clock alike. -/
theorem insert_context (h : Alike l s s') (state : String) {x x' : StateContext}
    (hx : x'.retime l.clock = x.retime l.clock) :
    (s'.task.contexts.insert state x').mapValues (StateContext.retime l.clock) =
      (s.task.contexts.insert state x).mapValues (StateContext.retime l.clock) := by
  rw [SortedMap.mapValues_insert, SortedMap.mapValues_insert, h.contexts, hx]

theorem arrive (h : Alike l s s') (now : Instant) (state : String) (executed : Bool) :
    Alike l (s.arrive now state executed) (s'.arrive (l.clock.reading now) state executed) := by
  have hvisit : ((s'.task.context state).visit (l.clock.reading now)).retime l.clock =
      ((s.task.context state).visit now).retime l.clock := by
    rw [StateContext.retime_visit, StateContext.retime_visit, h.context, l.clock.reading_reading]
  have hpast : l.past.agree (s.arrive now state executed).past
      (s'.arrive (l.clock.reading now) state executed).past := by
    rw [past_arrive, past_arrive, h.timerOf]
    exact l.past.record (l.past.engage h.past _ now) (.state state executed now)
  exact { h with current := rfl, contexts := h.insert_context state hvisit, past := hpast }

theorem enterStart (h : Alike l s s') (now : Instant) (state : String) :
    Alike l (s.enterStart now state) (s'.enterStart (l.clock.reading now) state) := by
  have hstarted : Alike l
      (s.updateTask fun t =>
        { t with phase := .running, recording := t.recording.markStarted now })
      (s'.updateTask fun t =>
        { t with phase := .running, recording := t.recording.markStarted (l.clock.reading now) }) :=
    { h with phase := rfl, past := l.past.start h.past now }
  exact hstarted.arrive now state true

theorem depart (h : Alike l s s') (now : Instant) (m : Move) :
    Alike l (s.depart now m) (s'.depart (l.clock.reading now) m) := by
  have hrecord := h.record (.transition m.origin m.method m.value m.requested m.kind now)
  unfold Session.depart
  dsimp only
  split
  · exact hrecord
  · refine { hrecord with counts := ?_ }
    show s'.task.counts.insert _ (s'.task.counts.getD _ 0 + 1) = _
    rw [h.counts]
    rfl

theorem complete (h : Alike l s s') (now : Instant) (phase : Phase) (exit : Exit) :
    Alike l (s.complete now phase exit) (s'.complete (l.clock.reading now) phase exit) := by
  have hpast : l.past.agree (s.complete now phase exit).past
      (s'.complete (l.clock.reading now) phase exit).past := by
    rw [past_complete, past_complete, h.current]
    exact l.past.stop h.past now _
  exact { h with
    phase := rfl
    exit := congrArg (fun x => some (Option.getD x exit)) h.exit
    past := hpast }

/-! ## Calls -/

theorem sendAll {q q' : SignalQueue} (h : l.queue.agree q q')
    (signals : List (String × Option String)) :
    l.queue.agree (q.sendAll signals) (q'.sendAll signals) := by
  induction signals generalizing q q' with
  | nil => exact h
  | cons x rest ih => exact ih (l.queue.send h x.1 x.2)

theorem afterCall (h : Alike l s s') (state : String) {m : σ} {m' : σ'} (hm : l.memory m m')
    {d d' : Desk} (hd : d'.retime l.clock = d.retime l.clock) :
    Alike l (s.afterCall state m d) (s'.afterCall state m' d') := by
  have hcontext : d'.toStateContext.retime l.clock = d.toStateContext.retime l.clock :=
    (congrArg Desk.toStateContext hd :)
  have houtbox : d'.outbox = d.outbox := (congrArg Desk.outbox hd :)
  have hqueue : l.queue.agree (s.queue.sendAll d.outbox) (s'.queue.sendAll d'.outbox) := by
    rw [houtbox]
    exact sendAll h.queue d.outbox
  exact { h with
    memory := hm
    contexts := h.insert_context state hcontext
    exit := (congrArg Desk.exit hd :)
    queue := hqueue
    paused := (congrArg Desk.paused hd :) }

theorem visit (h : Alike l s s') (state : String) (cause : Option String) :
    (s'.visit state cause).retime l.clock = (s.visit state cause).retime l.clock := by
  have hvisits : (s'.task.context state).visits = (s.task.context state).visits :=
    (congrArg StateContext.visits (h.context state) :)
  have hfirst : (s'.task.context state).firstEntered.map l.clock.reading =
      (s.task.context state).firstEntered.map l.clock.reading :=
    (congrArg StateContext.firstEntered (h.context state) :)
  have hlast : (s'.task.context state).lastEntered.map l.clock.reading =
      (s.task.context state).lastEntered.map l.clock.reading :=
    (congrArg StateContext.lastEntered (h.context state) :)
  simp only [Session.visit, Visit.retime, hvisits, hfirst, hlast, h.id.1, h.id.2]

theorem desk (h : Alike l s s') (state : String) :
    (s'.desk state).retime l.clock = (s.desk state).retime l.clock := by
  simp only [Session.desk, Desk.retime, h.context, h.exit, h.paused]

theorem callState (h : Alike l s s') (state : String) (cause : Option String) :
    AlikeIn l (s.callState state cause) (s'.callState state cause) := by
  obtain ⟨hmemory, hdesk, hanswer⟩ := l.enter h.memory (h.visit state cause) (h.desk state)
  unfold Session.callState
  rw [h.catalog, h.handler.1, h.handler.2]
  split
  · generalize l.handler.enter s.memory (s.visit state cause) (s.desk state) = left at *
    generalize l.handler'.enter s'.memory _ (s'.desk state) = left' at *
    obtain ⟨m, d, answer⟩ := left
    obtain ⟨m', d', answer'⟩ := left'
    cases hanswer
    cases answer with
    | ok => exact ⟨h.afterCall state hmemory hdesk, rfl⟩
    | error message => exact ⟨h.afterCall state hmemory hdesk, rfl⟩
  · split <;> exact ⟨h, rfl⟩

theorem enterLive (h : Alike l s s') (state : String) (cause : Option String) :
    AlikeIn l (s.enterLive state cause) (s'.enterLive state cause) := by
  unfold Session.enterLive
  rw [h.isSimulating]
  split
  · exact ⟨h, rfl⟩
  · exact h.callState state cause

theorem callSelector (h : Alike l s s') (state method : String) :
    AlikeIn l (s.callSelector state method) (s'.callSelector state method) := by
  obtain ⟨hmemory, hdesk, hanswer⟩ :=
    l.select h.memory method (h.visit state none) (h.desk state)
  unfold Session.callSelector
  rw [h.catalog, h.handler.1, h.handler.2]
  split
  · generalize l.handler.select s.memory method (s.visit state none) (s.desk state) = left at *
    generalize l.handler'.select s'.memory method _ (s'.desk state) = left' at *
    obtain ⟨m, d, answer⟩ := left
    obtain ⟨m', d', answer'⟩ := left'
    cases hanswer
    cases answer with
    | ok value => exact ⟨h.afterCall state hmemory hdesk, rfl⟩
    | error message => exact ⟨h.afterCall state hmemory hdesk, rfl⟩
  · split <;> exact ⟨h, rfl⟩

theorem withSupply (h : Alike l s s') {supply : Option τ} {supply' : Option τ'}
    (hsupply : Supplied l.supply.agree supply supply') :
    Alike l { s with supply } { s' with supply := supply' } :=
  { h with supply := hsupply }

theorem askValue (h : Alike l s s') (state method : String) :
    AlikeIn l (s.askValue state method) (s'.askValue state method) := by
  have hsupply := h.supply
  have hselector := h.callSelector state method
  unfold Session.askValue
  generalize s.supply = x at *
  generalize s'.supply = x' at *
  cases hsupply with
  | none => exact ⟨hselector.1, congrArg Except.ok hselector.2⟩
  | some alike =>
    rename_i x x'
    obtain ⟨hnext, hanswer⟩ := l.supply.next alike state method
    dsimp only
    generalize Supply.next x state method = given at *
    generalize Supply.next x' state method = given' at *
    obtain ⟨x, answer⟩ := given
    obtain ⟨x', answer'⟩ := given'
    cases hanswer
    cases answer with
    | ok value => exact ⟨h.withSupply (.some hnext), rfl⟩
    | error e => exact ⟨h.withSupply (.some hnext), rfl⟩

/-! ## Moves -/

theorem move (h : Alike l s s') (now : Instant) (m : Move) :
    Alike l (s.move now m) (s'.move (l.clock.reading now) m) := by
  have harrive := (h.depart now m).arrive now m.transition.target m.transition.exec
  unfold Session.move
  dsimp only
  split
  · exact harrive.setFailed m.reason
  · exact harrive

theorem enterTarget (h : Alike l s s') (now : Instant) (m : Move) :
    AlikeIn l (s.enterTarget now m) (s'.enterTarget (l.clock.reading now) m) := by
  unfold Session.enterTarget
  split
  · exact (h.move now m).enterLive _ _
  · exact ⟨h.move now m, rfl⟩

/-- What follows a problem in two sessions, if it leaves alike sessions alike. -/
abbrev Recovers (l : Likeness σ σ' τ τ')
    (recover : Session σ τ → String → Trouble → Stepped σ τ)
    (recover' : Session σ' τ' → String → Trouble → Stepped σ' τ') : Prop :=
  ∀ {s s'}, Alike l s s' → ∀ state trouble,
    AlikeIn l (recover s state trouble) (recover' s' state trouble)

theorem follow {recover : Session σ τ → String → Trouble → Stepped σ τ}
    {recover' : Session σ' τ' → String → Trouble → Stepped σ' τ'} (h : Alike l s s') (now : Instant)
    (m : Move) (hrecover : Recovers l recover recover') :
    AlikeIn l (s.follow now recover m) (s'.follow (l.clock.reading now) recover' m) := by
  obtain ⟨hentered, htrouble⟩ := h.enterTarget now m
  rw [follow_eq, follow_eq, htrouble]
  generalize (s.enterTarget now m).1 = entered at *
  generalize (s'.enterTarget _ m).1 = entered' at *
  cases (s.enterTarget now m).2 with
  | none =>
    simp only [settle]
    split
    · have hcomplete := hentered.complete now .finished ⟨.succeeded, none⟩
      exact ⟨hcomplete, hcomplete.completed _⟩
    · exact ⟨hentered, rfl⟩
  | some trouble =>
    simp only [settle]
    split
    · exact ⟨hentered.note trouble, rfl⟩
    · exact hrecover (hentered.note trouble) _ _

theorem errorRoute (h : Alike l s s') (b : Block) : s'.errorRoute b = s.errorRoute b := by
  unfold Session.errorRoute
  rw [funext h.isExhausted]

theorem errorMove (h : Alike l s s') (state : String) (t : Transition) (cause : Trouble) :
    s'.errorMove state t cause = s.errorMove state t cause := by
  unfold Session.errorMove
  rw [h.methodOf]

theorem goToFailure (h : Alike l s s') (now : Instant) (state : String) (cause : Trouble) :
    AlikeIn l (s.goToFailure now state cause)
      (s'.goToFailure (l.clock.reading now) state cause) := by
  unfold Session.goToFailure
  rw [h.errorMove]
  exact h.follow now _ fun h _ _ => ⟨h, rfl⟩

theorem goToError (h : Alike l s s') (now : Instant) (state : String) (cause : Trouble) :
    AlikeIn l (s.goToError now state cause) (s'.goToError (l.clock.reading now) state cause) := by
  have hroute : (s'.table.block? state).elim Transition.toFailure s'.errorRoute =
      (s.table.block? state).elim Transition.toFailure s.errorRoute := by
    rw [h.table, funext h.errorRoute]
  unfold Session.goToError
  dsimp only
  rw [hroute, h.errorMove]
  exact h.follow now _ fun h => h.goToFailure now

/-! ## Steps -/

theorem outcome {r : Stepped σ τ} {r' : Stepped σ' τ'} (h : AlikeIn l r r') :
    AlikeIn l r.outcome r'.outcome :=
  ⟨h.1, congrArg Except.ok h.2⟩

theorem takeError (h : Alike l s s') (now : Instant) (b : Block) (state : String)
    (requested : Option String) (cause : Trouble) :
    AlikeIn l (s.takeError now b state requested cause)
      (s'.takeError (l.clock.reading now) b state requested cause) := by
  unfold Session.takeError
  rw [h.errorRoute]
  exact outcome (h.follow now _ fun h => h.goToError now)

theorem held (h : Alike l s s') : AlikeIn l s.held s'.held :=
  ⟨h, congrArg (fun wait => Except.ok (StepResult.running wait)) h.pauseWait⟩

theorem resolve (h : Alike l s s') (b : Block) (state value : String) :
    s'.resolve b state value = s.resolve b state value := by
  unfold Session.resolve
  rw [h.errorRoute, funext h.isExhausted]

theorem takeValue (h : Alike l s s') (watch : Watch) (now : Instant) (b : Block)
    (state value : String) :
    AlikeIn l (s.takeValue watch now b state value)
      (s'.takeValue watch (l.clock.reading now) b state value) := by
  unfold Session.takeValue
  rw [h.resolve]
  split
  · exact h.takeError now b state _ _
  · cases s.resolve b state value with
    | ok t => exact outcome (h.follow now _ fun h => h.goToError now)
    | error trouble =>
      have hnoted := h.note trouble
      dsimp only
      rw [hnoted.paused]
      split
      · exact hnoted.held
      · exact hnoted.takeError now b state _ _

theorem selectFrom (h : Alike l s s') (watch : Watch) (now : Instant) (b : Block)
    (state : String) :
    AlikeIn l (s.selectFrom watch now b state)
      (s'.selectFrom watch (l.clock.reading now) b state) := by
  obtain ⟨hasked, hanswer⟩ := h.askValue state b.method
  unfold Session.selectFrom
  rw [h.paused]
  split
  · exact h.held
  · generalize s.askValue state b.method = asked at *
    generalize s'.askValue state b.method = asked' at *
    obtain ⟨left, answer⟩ := asked
    obtain ⟨left', answer'⟩ := asked'
    cases hanswer
    match answer with
    | .error e => exact ⟨hasked, rfl⟩
    | .ok (.error trouble) => exact (hasked.note trouble).takeError now b state _ _
    | .ok (.ok value) => exact hasked.takeValue watch now b state value

theorem goOnWithoutBlock (h : Alike l s s') (now : Instant) (state : String) (e : TableError) :
    AlikeIn l (s.goOnWithoutBlock now state e)
      (s'.goOnWithoutBlock (l.clock.reading now) state e) := by
  unfold Session.goOnWithoutBlock
  rw [h.exit]
  split
  · have hcomplete := h.complete now .finished ⟨.succeeded, none⟩
    exact ⟨hcomplete, congrArg Except.ok (hcomplete.completed 0)⟩
  · split
    · have hcomplete := h.complete now .terminated ⟨.terminated, none⟩
      exact ⟨hcomplete, congrArg Except.ok (hcomplete.completed 0)⟩
    · split
      · exact ⟨(h.setExit _).complete now .finished _, rfl⟩
      · exact outcome ((h.note _).goToFailure now state _)

theorem goOn (h : Alike l s s') (watch : Watch) (now : Instant) (state : String) :
    AlikeIn l (s.goOn watch now state) (s'.goOn watch (l.clock.reading now) state) := by
  unfold Session.goOn
  rw [h.table]
  cases s.table.block state with
  | ok b => exact h.selectFrom watch now b state
  | error e => exact h.goOnWithoutBlock now state e

theorem start (h : Alike l s s') (watch : Watch) (now : Instant) :
    AlikeIn l (s.start watch now) (s'.start watch (l.clock.reading now)) := by
  cases hstart : s.table.startState with
  | error e =>
    unfold Session.start
    rw [h.table, hstart]
    exact ⟨h, rfl⟩
  | ok state =>
    obtain ⟨hentered, htrouble⟩ := (h.enterStart now state).enterLive state none
    rw [start_eq watch now hstart, start_eq watch _ (h.table.symm ▸ hstart), htrouble]
    generalize ((s.enterStart now state).enterLive state none).1 = entered at *
    generalize ((s'.enterStart _ state).enterLive state none).1 = entered' at *
    cases ((s.enterStart now state).enterLive state none).2 with
    | none => exact hentered.goOn watch now state
    | some trouble =>
      simp only [settleStart]
      split
      · exact ⟨hentered.note trouble, rfl⟩
      · exact outcome ((hentered.note trouble).goToError now state trouble)

theorem terminate (h : Alike l s s') (now : Instant) (reason : String) :
    AlikeIn l (s.terminate now reason) (s'.terminate (l.clock.reading now) reason) := by
  suffices hended : Alike l (s.terminate now reason).1
      (s'.terminate (l.clock.reading now) reason).1 from
    ⟨hended, congrArg Except.ok (hended.completed 0)⟩
  unfold Session.terminate
  dsimp only
  rw [h.phase, h.current, h.table, h.methodOf]
  split
  · exact (h.enterLive _ _).1.complete now _ _
  · split
    · have harrived := (h.record (.transition (s.task.current.getD "")
        (s.methodOf (s.task.current.getD "")) Names.terminateRequested none .signal now)).arrive
          now Names.terminate true
      exact ((harrived.enterLive _ _).1.setExit _).complete now _ _
    · exact (h.setExit _).complete now _ _

/-- The signals that alike sessions see give the same reason. -/
theorem signal (h : Alike l s s') : s'.signal?.map Signal.text = s.signal?.map Signal.text := by
  unfold signal?
  rw [h.listening, h.id.1, h.id.2]
  split
  · exact l.queue.oldest h.queue
  · rfl

theorem consume (h : Alike l s s') {x x' : Signal} (hx : s.signal? = some x)
    (hx' : s'.signal? = some x') :
    Alike l { s with queue := s.queue.consume s.task.id x.id }
      { s' with queue := s'.queue.consume s'.task.id x'.id } := by
  have hqueue := l.queue.consume h.queue (h.id.1 ▸ oldest_of_signal hx)
    (h.id.2 ▸ oldest_of_signal hx')
  rw [h.id.1, h.id.2]
  exact { h with queue := hqueue }

theorem stepSeeing (h : Alike l s s') (watch : Watch) (now : Instant) :
    AlikeIn l (s.stepSeeing watch now) (s'.stepSeeing watch (l.clock.reading now)) := by
  have htext := h.signal
  unfold Session.stepSeeing
  rw [h.isComplete, h.phase, h.current]
  split
  · exact ⟨h, congrArg Except.ok (h.completed 0)⟩
  · cases hsignal : s.signal? with
    | some x =>
      cases hsignal' : s'.signal? with
      | none => simp [hsignal, hsignal'] at htext
      | some x' =>
        -- the two signals may differ in their numbers, but not in what they say
        simp only [hsignal, hsignal', Option.map_some, Option.some.injEq] at htext
        dsimp only
        rw [htext]
        exact (h.consume hsignal hsignal').terminate now x.text
    | none =>
      cases hsignal' : s'.signal? with
      | some x' => simp [hsignal, hsignal'] at htext
      | none =>
        dsimp only
        rw [h.paused]
        split
        · exact h.held
        · split
          · exact h.start watch now
          · exact h.start watch now
          · exact h.goOn watch now _

/-! ## Courses -/

theorem clearCount (h : Alike l s s') (state value : String) :
    Alike l (s.act (.clearCount state value)) (s'.act (.clearCount state value)) := by
  rw [act_clearCount, act_clearCount, h.table]
  split
  · next t _ => exact { h with counts := congrArg (·.erase t.line) h.counts }
  · exact h

end Alike

/-! ## Courses -/

/-- Actions that do the same to alike sessions. -/
inductive ActsAlike (l : Likeness σ σ' τ τ') : Action τ → Action τ' → Prop
  | step (watch : Watch) (now : Instant) :
      ActsAlike l (.step watch now) (.step watch (l.clock.reading now))
  | hold (paused : Bool) : ActsAlike l (.hold paused) (.hold paused)
  | send (task : String) (reason : Option String) :
      ActsAlike l (.send task reason) (.send task reason)
  | simulate {x : τ} {x' : τ'} (alike : l.supply.agree x x') :
      ActsAlike l (.simulate x) (.simulate x')
  | stopSimulating : ActsAlike l .stopSimulating .stopSimulating
  | clearCount (state value : String) :
      ActsAlike l (.clearCount state value) (.clearCount state value)

/-- An action does the same to sessions with one clock, and supplies that may be the same. -/
theorem actsAlike_refl {l : Likeness σ σ' τ τ} (hclock : l.clock = .same)
    (hsupply : ∀ x, l.supply.agree x x) (a : Action τ) : ActsAlike l a a := by
  cases a with
  | step watch now =>
    have hstep : ActsAlike l (.step watch now) (.step watch (l.clock.reading now)) :=
      .step watch now
    rwa [hclock] at hstep
  | hold paused => exact .hold paused
  | send task reason => exact .send task reason
  | simulate supply => exact .simulate (hsupply supply)
  | stopSimulating => exact .stopSimulating
  | clearCount state value => exact .clearCount state value

theorem Alike.act (h : Alike l s s') {a : Action τ} {a' : Action τ'} (ha : ActsAlike l a a') :
    Alike l (s.act a) (s'.act a') ∧ s'.replies a' = s.replies a := by
  cases ha with
  | step watch now =>
    obtain ⟨hstep, hresult⟩ := h.stepSeeing watch now
    exact ⟨hstep, congrArg (fun r => [r]) hresult⟩
  | hold paused => exact ⟨{ h with paused := rfl }, rfl⟩
  | send task reason => exact ⟨{ h with queue := l.queue.send h.queue task reason }, rfl⟩
  | simulate alike => exact ⟨h.withSupply (.some (l.supply.rewind alike)), rfl⟩
  | stopSimulating => exact ⟨h.withSupply .none, rfl⟩
  | clearCount state value => exact ⟨h.clearCount state value, rfl⟩

/-- Courses that do the same to alike sessions leave them alike, with the same results. -/
theorem Alike.course (h : Alike l s s') {as : List (Action τ)} {as' : List (Action τ')}
    (has : List.Forall₂ (ActsAlike l) as as') :
    Alike l (s.course as) (s'.course as') ∧ s'.results as' = s.results as := by
  induction has generalizing s s' with
  | nil => exact ⟨h, rfl⟩
  | cons ha _ ih =>
    obtain ⟨hact, hreplies⟩ := h.act ha
    obtain ⟨hcourse, hresults⟩ := ih hact
    exact ⟨hcourse, congrArg₂ (· ++ ·) hreplies hresults⟩

end Session
end TaskTable
