import TaskTable.Handler

/-!
# Changes of clock

A task keeps readings of the clock: when it was created, when its states were entered, since when
its timer runs. `Task.retime` is the task as another clock would have it, and each operation of a
task comes to the same by either clock.
-/

namespace TaskTable

/-- A change of clock: another reading for each reading, and other milliseconds, which agree on how
long it is from one reading to another. To change it twice is to change it once. -/
structure Clock where
  reading : Instant → Instant
  millis : Nat → Nat
  reading_reading : ∀ t, reading (reading t) = reading t
  millis_millis : ∀ n, millis (millis n) = millis n
  millis_add : ∀ a b, millis (a + b) = millis a + millis b
  elapsed : ∀ since now,
    (reading since).elapsedMillis (reading now) = millis (since.elapsedMillis now)

namespace Clock

/-- The same clock again. -/
def same : Clock where
  reading t := t
  millis n := n
  reading_reading _ := rfl
  millis_millis _ := rfl
  millis_add _ _ := rfl
  elapsed _ _ := rfl

/-- A clock that stands still. -/
def still (z : Instant) : Clock where
  reading _ := z
  millis _ := 0
  reading_reading _ := rfl
  millis_millis _ := rfl
  millis_add _ _ := rfl
  elapsed _ _ := by simp [Instant.elapsedMillis, Instant.elapsed]

theorem millis_zero (c : Clock) : c.millis 0 = 0 := by
  have h : c.millis 0 = c.millis 0 + c.millis 0 := c.millis_add 0 0
  omega

end Clock

/-! ## What another clock would have written -/

/-- The event by another clock. -/
def Event.retime (c : Clock) (e : Event) : Event :=
  e.withTime (c.reading e.time)

/-- The recording by another clock. -/
def Recording.retime (c : Clock) (r : Recording) : Recording where
  events := r.events.map (Event.retime c)
  addedAt := r.addedAt.map c.reading
  startedAt := r.startedAt.map c.reading
  endedAt := r.endedAt.map c.reading

/-- The context by another clock. -/
def StateContext.retime (c : Clock) (x : StateContext) : StateContext :=
  { x with
    firstEntered := x.firstEntered.map c.reading
    lastEntered := x.lastEntered.map c.reading }

/-- The timers by another clock. -/
def Timers.retime (c : Clock) (t : Timers) : Timers where
  totals := t.totals.mapValues c.millis
  active := t.active.map fun a => { a with since := c.reading a.since }

/-- The task by another clock. -/
def Task.retime (c : Clock) (t : Task) : Task :=
  { t with
    contexts := t.contexts.mapValues (StateContext.retime c)
    timers := t.timers.retime c
    recording := t.recording.retime c
    createdAt := c.reading t.createdAt }

/-- What a handler is told by another clock. -/
def Visit.retime (c : Clock) (v : Visit) : Visit :=
  { v with
    firstEntered := v.firstEntered.map c.reading
    lastEntered := v.lastEntered.map c.reading }

/-- What lies on a desk by another clock. -/
def Desk.retime (c : Clock) (d : Desk) : Desk :=
  { d with toStateContext := d.toStateContext.retime c }

variable (c : Clock)

/-! ## Nothing changes by the same clock -/

theorem Event.retime_same (e : Event) : e.retime .same = e := by
  cases e <;> rfl

theorem StateContext.retime_same (x : StateContext) : x.retime .same = x := by
  obtain ⟨visits, first, last, data⟩ := x
  cases first <;> cases last <;> rfl

theorem Visit.retime_same (v : Visit) : v.retime .same = v := by
  obtain ⟨id, state, cause, visits, first, last⟩ := v
  cases first <;> cases last <;> rfl

theorem Desk.retime_same (d : Desk) : d.retime .same = d := by
  unfold retime
  rw [StateContext.retime_same]

theorem Recording.retime_same (r : Recording) : r.retime .same = r := by
  obtain ⟨events, added, started, ended⟩ := r
  have hevents : events.map (Event.retime .same) = events := by
    rw [funext Event.retime_same]
    exact List.map_id' events
  simp only [retime, hevents]
  cases added <;> cases started <;> cases ended <;> rfl

theorem Timers.retime_same (t : Timers) : t.retime .same = t := by
  obtain ⟨totals, active⟩ := t
  have htotals : totals.mapValues Clock.same.millis = totals :=
    SortedMap.ext_entries (List.map_id' totals.entries)
  simp only [retime, htotals]
  cases active <;> rfl

theorem StateContext.mapValues_retime_same (contexts : SortedMap String StateContext) :
    contexts.mapValues (StateContext.retime .same) = contexts := by
  rw [funext StateContext.retime_same]
  exact SortedMap.ext_entries (List.map_id' contexts.entries)

theorem Task.retime_same (t : Task) : t.retime .same = t := by
  unfold retime
  rw [StateContext.mapValues_retime_same, Timers.retime_same, Recording.retime_same]
  rfl

/-! ## Nothing changes the second time -/

theorem Event.retime_retime (e : Event) : (e.retime c).retime c = e.retime c := by
  cases e <;> simp only [retime, Event.withTime, Event.time, c.reading_reading]

theorem Clock.map_reading_map_reading (t : Option Instant) :
    (t.map c.reading).map c.reading = t.map c.reading := by
  cases t with
  | none => rfl
  | some t => exact congrArg some (c.reading_reading t)

theorem StateContext.retime_retime (x : StateContext) :
    (x.retime c).retime c = x.retime c := by
  simp only [retime, c.map_reading_map_reading]

theorem Visit.retime_retime (v : Visit) : (v.retime c).retime c = v.retime c := by
  simp only [retime, c.map_reading_map_reading]

theorem Desk.retime_retime (d : Desk) : (d.retime c).retime c = d.retime c := by
  simp only [retime, StateContext.retime_retime]

theorem Recording.retime_retime (r : Recording) : (r.retime c).retime c = r.retime c := by
  have hevents : (r.events.map (Event.retime c)).map (Event.retime c) =
      r.events.map (Event.retime c) := by
    rw [List.map_map]
    exact List.map_congr_left fun e _ => e.retime_retime c
  simp only [retime, hevents, c.map_reading_map_reading]

theorem Timers.retime_retime (t : Timers) : (t.retime c).retime c = t.retime c := by
  obtain ⟨totals, active⟩ := t
  simp only [retime, SortedMap.mapValues_mapValues_self c.millis_millis]
  cases active with
  | none => rfl
  | some a => simp only [Option.map_some, c.reading_reading]

/-! ## Recordings -/

theorem Recording.retime_push (r : Recording) (e : Event) :
    (r.push e).retime c = (r.retime c).push (e.retime c) := by
  simp [push, retime]

theorem Recording.retime_markStarted (r : Recording) (now : Instant) :
    (r.markStarted now).retime c = (r.retime c).markStarted (c.reading now) := by
  unfold markStarted retime
  cases r.startedAt <;> rfl

theorem Recording.retime_markEnded (r : Recording) (now : Instant) :
    (r.markEnded now).retime c = (r.retime c).markEnded (c.reading now) := by
  unfold markEnded retime
  cases r.endedAt <;> rfl

/-! ## Contexts -/

theorem StateContext.retime_visit (x : StateContext) (now : Instant) :
    (x.visit now).retime c = (x.retime c).visit (c.reading now) := by
  unfold visit retime
  cases x.firstEntered <;> rfl

theorem Task.context_retime (t : Task) (state : String) :
    (t.retime c).context state = (t.context state).retime c := by
  simp only [context, retime, SortedMap.getD, SortedMap.get?_mapValues]
  cases t.contexts.get? state <;> rfl

/-! ## Timers -/

namespace Timers

theorem mapValues_charge (totals : SortedMap String Nat) (name : String) (ms : Nat) :
    (charge totals name ms).mapValues c.millis =
      charge (totals.mapValues c.millis) name (c.millis ms) := by
  have hgetD : (totals.mapValues c.millis).getD name 0 = c.millis (totals.getD name 0) := by
    simp only [SortedMap.getD, SortedMap.get?_mapValues]
    cases totals.get? name with
    | none => exact c.millis_zero.symm
    | some ms => rfl
  simp only [charge, SortedMap.mapValues_insert, c.millis_add, hgetD]

theorem retime_stop (t : Timers) (now : Instant) :
    (t.stop now).retime c = (t.retime c).stop (c.reading now) := by
  obtain ⟨totals, active⟩ := t
  cases active with
  | none => rfl
  | some a =>
    simp only [stop, retime, mapValues_charge, c.elapsed, Option.map_some]
    rfl

theorem retime_start (t : Timers) (name : String) (now createdAt : Instant) :
    (engage.start name now createdAt t).retime c =
      engage.start name (c.reading now) (c.reading createdAt) (t.retime c) := by
  have hcontains : (t.retime c).totals.contains Names.startDelay =
      t.totals.contains Names.startDelay := by
    simp [retime, SortedMap.contains]
  simp only [engage.start, hcontains]
  split
  · simp only [retime, SortedMap.mapValues_insert, c.elapsed]
    rfl
  · rfl

theorem retime_engage (t : Timers) (name : String) (now createdAt : Instant) :
    (t.engage name now createdAt).retime c =
      (t.retime c).engage name (c.reading now) (c.reading createdAt) := by
  cases hactive : t.active with
  | none =>
    have hretimed : (t.retime c).active = none := by rw [retime, hactive]; rfl
    simp only [engage, hactive, hretimed, retime_start]
  | some a =>
    have hretimed : (t.retime c).active = some { a with since := c.reading a.since } := by
      rw [retime, hactive]
      rfl
    simp only [engage, hactive, hretimed]
    split
    · rfl
    · rw [retime_start, retime_stop]

end Timers

end TaskTable
