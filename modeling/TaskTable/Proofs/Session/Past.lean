import TaskTable.Proofs.Session.Change
import TaskTable.Proofs.Task.Clock

/-!
# The past of a session

A session keeps what became of it so far: the events with their marks, the timers, the timings
reported, the versions of its data. Steps add to this past and never go by it. `Past` is all of it
in one value, with what each operation of a session adds to it. What two pasts have in common, and
keep as the same is added to both, is a `Past.Accord`.
-/

namespace TaskTable

/-- What a session keeps and no step goes by. -/
structure Past where
  createdAt : Instant
  versions : SortedMap String Nat
  recording : Recording
  timers : Timers
  /-- The timings reported so far, oldest first. -/
  reports : List (String × Nat)

namespace Past

/-- The past with one more event. -/
def record (p : Past) (e : Event) : Past :=
  { p with recording := p.recording.push e }

/-- The past once the task has started. -/
def start (p : Past) (now : Instant) : Past :=
  { p with recording := p.recording.markStarted now }

/-- The past once a timer runs. -/
def engage (p : Past) (timer : String) (now : Instant) : Past :=
  { p with timers := p.timers.engage timer now p.createdAt }

/-- The past once the task has ended, with its timings reported or not. -/
def stop (p : Past) (now : Instant) (reported : Bool) : Past :=
  { p with
    recording := p.recording.markEnded now
    timers := p.timers.stop now
    reports := if reported then p.reports ++ (p.timers.stop now).totals.entries else p.reports }

/-! ## By another clock -/

/-- The past by another clock. -/
def retime (c : Clock) (p : Past) : Past where
  createdAt := c.reading p.createdAt
  versions := p.versions
  recording := p.recording.retime c
  timers := p.timers.retime c
  reports := p.reports.map fun r => (r.1, c.millis r.2)

variable (c : Clock) (p : Past)

theorem retime_record (e : Event) : (p.record e).retime c = (p.retime c).record (e.retime c) := by
  simp only [record, retime, Recording.retime_push]

theorem retime_start (now : Instant) :
    (p.start now).retime c = (p.retime c).start (c.reading now) := by
  simp only [start, retime, Recording.retime_markStarted]

theorem retime_engage (timer : String) (now : Instant) :
    (p.engage timer now).retime c = (p.retime c).engage timer (c.reading now) := by
  simp only [engage, retime, Timers.retime_engage]

theorem retime_stop (now : Instant) (reported : Bool) :
    (p.stop now reported).retime c = (p.retime c).stop (c.reading now) reported := by
  simp only [stop, retime, ← Timers.retime_stop, Recording.retime_markEnded]
  congr 1
  -- the totals that are reported are milliseconds by either clock
  split
  · simp [Timers.retime, SortedMap.mapValues]
  · rfl

/-- What two pasts have in common for good: a relation that is kept when the same is added to both,
to the second one by another clock. -/
structure Accord (c : Clock) where
  agree : Past → Past → Prop
  record : ∀ {p p'}, agree p p' → ∀ e, agree (p.record e) (p'.record (e.retime c))
  start : ∀ {p p'}, agree p p' → ∀ now, agree (p.start now) (p'.start (c.reading now))
  engage : ∀ {p p'}, agree p p' → ∀ timer now,
    agree (p.engage timer now) (p'.engage timer (c.reading now))
  stop : ∀ {p p'}, agree p p' → ∀ now reported,
    agree (p.stop now reported) (p'.stop (c.reading now) reported)

/-- Pasts that are the same but for the clock. -/
def Accord.retimed : Accord c where
  agree p p' := p' = p.retime c
  record := by
    rintro p _ rfl e
    exact (p.retime_record c e).symm
  start := by
    rintro p _ rfl now
    exact (p.retime_start c now).symm
  engage := by
    rintro p _ rfl timer now
    exact (p.retime_engage c timer now).symm
  stop := by
    rintro p _ rfl now reported
    exact (p.retime_stop c now reported).symm

end Past

namespace Session

variable {σ τ : Type}

/-- The past of a session. -/
def past (s : Session σ τ) : Past where
  createdAt := s.task.createdAt
  versions := s.task.versions
  recording := s.task.recording
  timers := s.task.timers
  reports := s.reports

/-- The session with another past. -/
def withPast (s : Session σ τ) (p : Past) : Session σ τ :=
  { s with
    task :=
      { s.task with
        createdAt := p.createdAt
        versions := p.versions
        recording := p.recording
        timers := p.timers }
    reports := p.reports }

/-! ## What operations add to the past -/

theorem past_arrive (s : Session σ τ) (now : Instant) (state : String) (executed : Bool) :
    (s.arrive now state executed).past =
      (s.past.engage (s.timerOf state) now).record (.state state executed now) := rfl

theorem past_complete (s : Session σ τ) (now : Instant) (phase : Phase) (exit : Exit) :
    (s.complete now phase exit).past =
      s.past.stop now (s.task.current = some Names.finish) := by
  simp only [complete, past, Past.stop, decide_eq_true_eq]

end Session
end TaskTable
