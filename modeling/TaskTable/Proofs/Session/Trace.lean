import TaskTable.Proofs.Session.Calls
import TaskTable.Session.Step

/-!
# Traces

The part of a session that its table speaks about: the phase, the current state, the counts and the
events. Whatever a handler, a supply, a signal or an operator does leaves the trace alone; only
moves, arrivals and the end of the task change it, and how they do is a function of the trace. The
contexts of states are no part of it, since handlers may replace them. Each operation of a session
has its effect on the trace as a simp lemma here, so that later proofs do not open the operations
again.
-/

namespace TaskTable

/-- What a table has a say in. -/
structure Trace where
  phase : Phase
  current : Option String
  counts : SortedMap Nat Nat
  events : List Event

/-- The trace of a session. -/
def Session.trace {σ τ : Type} (s : Session σ τ) : Trace where
  phase := s.task.phase
  current := s.task.current
  counts := s.task.counts
  events := s.task.recording.events

namespace Trace

open Session (Move)

/-- How often the transition declared on a line was taken. -/
def count (tr : Trace) (line : Nat) : Nat :=
  tr.counts.getD line 0

/-- Whether a transition was taken as often as it may be. -/
def isExhausted (tr : Trace) (t : Transition) : Bool :=
  t.max != 0 && t.max ≤ tr.count t.line

/-- The error route of a block: the declared one while it may be taken, else the way to
`failure`. -/
def errorRoute (tr : Trace) (b : Block) : Transition :=
  match b.next? Names.error with
  | some t => if tr.isExhausted t then .toFailure else t
  | none => .toFailure

/-- The trace with one more event. -/
def record (tr : Trace) (e : Event) : Trace :=
  { tr with events := tr.events ++ [e] }

/-- The trace once a state is entered. -/
def arrive (now : Instant) (tr : Trace) (state : String) (executed : Bool) : Trace :=
  { tr with
    current := some state
    events := tr.events ++ [.state state executed now] }

/-- The trace once a state is left along a move. -/
def depart (now : Instant) (tr : Trace) (m : Move) : Trace :=
  { tr with
    counts :=
      if m.transition.isImplicit then tr.counts
      else tr.counts.insert m.transition.line (tr.count m.transition.line + 1)
    events := tr.events ++ [.transition m.origin m.method m.value m.requested m.kind now] }

/-- The trace once a move is made. -/
def move (now : Instant) (tr : Trace) (m : Move) : Trace :=
  (tr.depart now m).arrive now m.transition.target m.transition.exec

/-- The trace of a task that has ended. -/
def stop (tr : Trace) (phase : Phase) : Trace :=
  { tr with phase }

/-- A move adds two events: the transition, and the state it leads to. -/
theorem move_events (now : Instant) (tr : Trace) (m : Move) :
    (tr.move now m).events = tr.events ++
      [.transition m.origin m.method m.value m.requested m.kind now,
        .state m.transition.target m.transition.exec now] := by
  simp [move, depart, arrive]

@[simp] theorem move_current (now : Instant) (tr : Trace) (m : Move) :
    (tr.move now m).current = some m.transition.target := rfl

@[simp] theorem move_phase (now : Instant) (tr : Trace) (m : Move) :
    (tr.move now m).phase = tr.phase := rfl

end Trace

namespace Session

variable {σ τ : Type}

/-! ## Reading the trace off a session -/

theorem count_trace (s : Session σ τ) (line : Nat) : s.trace.count line = s.task.count line := rfl

theorem isExhausted_trace (s : Session σ τ) (t : Transition) :
    s.trace.isExhausted t = s.isExhausted t := rfl

/-! ## Operations that leave the trace alone -/

@[simp] theorem trace_note (s : Session σ τ) (t : Trouble) : (s.note t).trace = s.trace := rfl

@[simp] theorem trace_afterCall (s : Session σ τ) (state : String) (memory : σ) (d : Desk) :
    (s.afterCall state memory d).trace = s.trace := rfl

@[simp] theorem trace_enterLive (s : Session σ τ) (state : String) (cause : Option String) :
    (s.enterLive state cause).1.trace = s.trace := by
  rcases s.enterLive_eq state cause with h | ⟨_, m, d, -, h⟩ <;> simp [h]

/-- Asking for a value changes what handlers and supplies keep, and nothing else. -/
theorem Asks.keeps {s : Session σ τ} {state method : String}
    {asked : Session σ τ × Except SupplyError (Except Trouble String)}
    (h : s.Asks state method asked) :
    asked.1.trace = s.trace ∧ asked.1.table = s.table ∧
      asked.1.isSimulating = s.isSimulating := by
  cases h with
  | supplied before after _ simulated | gaveOut before after _ simulated =>
    refine ⟨rfl, rfl, ?_⟩
    unfold isSimulating
    rw [simulated]
    rfl
  | selected memory desk | failed memory desk =>
    exact ⟨trace_afterCall s state memory desk, rfl, rfl⟩
  | standIn | missing => exact ⟨rfl, rfl, rfl⟩

@[simp] theorem trace_setExit (s : Session σ τ) (exit : Option Exit) :
    (s.updateTask fun t => { t with exit }).trace = s.trace := rfl

@[simp] theorem trace_setFailed (s : Session σ τ) (reason : Option Trouble) :
    (s.setFailed reason).trace = s.trace := rfl

/-! ## Operations that change the trace -/

@[simp] theorem trace_record (s : Session σ τ) (e : Event) :
    (s.record e).trace = s.trace.record e := rfl

@[simp] theorem trace_arrive (s : Session σ τ) (now : Instant) (state : String) (executed : Bool) :
    (s.arrive now state executed).trace = s.trace.arrive now state executed := rfl

@[simp] theorem trace_depart (s : Session σ τ) (now : Instant) (m : Move) :
    (s.depart now m).trace = s.trace.depart now m := by
  unfold depart Trace.depart
  split <;> rfl

@[simp] theorem trace_complete (s : Session σ τ) (now : Instant) (phase : Phase) (exit : Exit) :
    (s.complete now phase exit).trace = s.trace.stop phase := rfl

/-- Makes a move: the state is left, the target entered, and in `failure` an exit is set. -/
def move (now : Instant) (s : Session σ τ) (m : Move) : Session σ τ :=
  let s := (s.depart now m).arrive now m.transition.target m.transition.exec
  if m.transition.target = Names.failure then s.setFailed m.reason else s

/-- A move changes nothing of a session but its task. -/
theorem move_eq_updateTask (s : Session σ τ) (now : Instant) (m : Move) :
    s.move now m = s.updateTask fun _ => (s.move now m).task := by
  -- departing and setting the exit both rewrite the task only
  have hdepart : s.depart now m = s.updateTask fun _ => (s.depart now m).task := by
    unfold depart
    split <;> rfl
  unfold move
  dsimp only
  rw [hdepart]
  split <;> rfl

theorem id_move (s : Session σ τ) (now : Instant) (m : Move) :
    (s.move now m).task.id = s.task.id := by
  unfold move depart
  dsimp only
  split <;> split <;> rfl

@[simp] theorem trace_move (s : Session σ τ) (now : Instant) (m : Move) :
    (s.move now m).trace = s.trace.move now m := by
  unfold move
  split <;> simp [Trace.move]

end Session
end TaskTable
