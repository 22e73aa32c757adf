import TaskTable.Proofs.Session.Trace

/-!
# Strides

What a step makes of a trace when no signal, no pause and no error of a state handler disturbs it:
a function of the trace and of the one value that is taken, `Trace.stepOn`. The value is recorded
with the state that it was taken in, and the clock has no say in anything but the times of events.
-/

namespace TaskTable

/-- What a quiet step comes to: the trace after it, the seconds until the next step, and whether the
task has ended. -/
structure Stride where
  trace : Trace
  wait : Nat
  complete : Bool

namespace Trace

open Session (Move)

/-! ## Quiet steps of a trace -/

/-- Makes a move to a state whose handler succeeds. The task ends in `finish`. -/
def settle (now : Instant) (tr : Trace) (m : Move) : Stride :=
  if m.transition.target = Names.finish then
    ⟨(tr.move now m).stop .finished, m.transition.wait, true⟩
  else ⟨tr.move now m, m.transition.wait, false⟩

/-- The move along the error route of a block. -/
def errorChoice (tr : Trace) (b : Block) (state : String) (requested : Option String) : Move where
  origin := state
  method := b.method
  value := Names.error
  requested := requested
  kind := .selector
  transition := tr.errorRoute b
  cause := none

/-- The move that a value makes in a state with a block. A selector that fails counts as one that
gives `!`. -/
def choice (tr : Trace) (b : Block) (state value : String) : Move :=
  if value = Names.error then tr.errorChoice b state none
  else
    match b.next? value with
    | none => tr.errorChoice b state (some value)
    | some t =>
      if tr.isExhausted t then tr.errorChoice b state (some value)
      else
        { origin := state
          method := b.method
          value
          kind := .selector
          transition := t
          cause := none }

/-- Goes on in a state without a block, if it can. -/
def leave (now : Instant) (tr : Trace) (state : String) : Option Stride :=
  if state = Names.finish then some ⟨tr.stop .finished, 0, true⟩
  else if state = Names.terminate then some ⟨tr.stop .terminated, 0, true⟩
  else if state = Names.failure then none
  else
    some <| tr.settle now
      { origin := state
        method := Names.emptyTransition
        value := Names.error
        kind := .fallback
        transition := .toFailure
        cause := none }

/-- Goes on in the given state, with the value that is taken where it has a block. Also gives what
was asked for: nothing, or this value in this state. -/
def goOn (t : Table) (now : Instant) (tr : Trace) (state value : String) :
    Option (List (String × String) × Stride) :=
  match t.block? state with
  | some b => some ([(state, value)], tr.settle now (tr.choice b state value))
  | none => (tr.leave now state).map ([], ·)

/-- Enters the first state. -/
def begin (t : Table) (now : Instant) (tr : Trace) : Option (Trace × String) :=
  match t.startState with
  | .ok state => some ((tr.stop .running).arrive now state true, state)
  | .error _ => none

/-- The trace of a task that has started, and the state in which it goes on. -/
def ready (t : Table) (now : Instant) (tr : Trace) : Option (Trace × String) :=
  match tr.phase, tr.current with
  | .notStarted, _ | _, none => tr.begin t now
  | _, some state => some (tr, state)

theorem ready_of_fresh (t : Table) (now : Instant) {tr : Trace}
    (h : tr.phase = .notStarted ∨ tr.current = none) : tr.ready t now = tr.begin t now := by
  obtain ⟨phase, current, counts, events⟩ := tr
  rcases h with rfl | rfl
  · cases current <;> rfl
  · cases phase <;> rfl

theorem ready_of_started (t : Table) (now : Instant) {tr : Trace} {state : String}
    (hphase : tr.phase ≠ .notStarted) (hcurrent : tr.current = some state) :
    tr.ready t now = some (tr, state) := by
  obtain ⟨phase, current, counts, events⟩ := tr
  cases hcurrent
  cases phase <;> first | exact absurd rfl hphase | rfl

/-- One quiet step. -/
def stepOn (t : Table) (now : Instant) (tr : Trace) (value : String) :
    Option (List (String × String) × Stride) :=
  if tr.phase.isTerminal then some ([], ⟨tr, 0, true⟩)
  else (tr.ready t now).bind fun r => r.1.goOn t now r.2 value

/-! ## What was asked for is recorded -/

/-- The states in which a selector was asked, each with the value that it gave. -/
def selected (tr : Trace) : List (String × String) :=
  tr.events.filterMap Event.selected?

theorem selected_settle (now : Instant) (tr : Trace) (m : Move) :
    (tr.settle now m).trace.selected = tr.selected ++
      (if m.kind = .selector then [(m.origin, m.requested.getD m.value)] else []) := by
  have hmove : (tr.move now m).selected = tr.selected ++
      (if m.kind = .selector then [(m.origin, m.requested.getD m.value)] else []) := by
    rw [selected, move_events, List.filterMap_append]
    cases hkind : m.kind <;> simp [Event.selected?, selected]
  unfold settle
  split
  · exact hmove
  · exact hmove

theorem selected_choice (tr : Trace) (b : Block) (state value : String) :
    (tr.choice b state value).kind = .selector ∧ (tr.choice b state value).origin = state ∧
      (tr.choice b state value).requested.getD (tr.choice b state value).value = value := by
  unfold choice
  split
  · next h => exact ⟨rfl, rfl, h.symm⟩
  · split
    · exact ⟨rfl, rfl, rfl⟩
    · split <;> exact ⟨rfl, rfl, rfl⟩

theorem selected_goOn {t : Table} {now : Instant} {tr : Trace} {state value : String}
    {asked : List (String × String)} {p : Stride}
    (h : tr.goOn t now state value = some (asked, p)) :
    p.trace.selected = tr.selected ++ asked := by
  unfold goOn at h
  split at h
  · next b hb =>
    cases h
    obtain ⟨hkind, horigin, hvalue⟩ := tr.selected_choice b state value
    rw [selected_settle, if_pos hkind, horigin, hvalue]
  · obtain ⟨p', hp, h⟩ := Option.map_eq_some_iff.1 h
    cases h
    rw [List.append_nil]
    unfold leave at hp
    split at hp
    · cases hp; rfl
    · split at hp
      · cases hp; rfl
      · split at hp
        · cases hp
        · cases hp
          rw [selected_settle, if_neg Origin.noConfusion, List.append_nil]

theorem selected_ready {t : Table} {now : Instant} {tr tr' : Trace} {state : String}
    (h : tr.ready t now = some (tr', state)) : tr'.selected = tr.selected := by
  -- entering the first state records a state, and no value
  have hbegin : tr.begin t now = some (tr', state) → tr'.selected = tr.selected := by
    unfold begin
    split
    · rintro ⟨rfl⟩
      simp [selected, arrive, stop, Event.selected?]
    · intro h
      cases h
  unfold ready at h
  split at h
  · exact hbegin h
  · exact hbegin h
  · cases h
    rfl

/-- A quiet step records what was asked for in it. -/
theorem selected_stepOn {t : Table} {now : Instant} {tr : Trace} {value : String}
    {asked : List (String × String)} {p : Stride} (h : tr.stepOn t now value = some (asked, p)) :
    p.trace.selected = tr.selected ++ asked := by
  unfold stepOn at h
  split at h
  · cases h
    rw [List.append_nil]
  · obtain ⟨⟨tr', state⟩, hready, hgo⟩ := Option.bind_eq_some_iff.1 h
    rw [selected_goOn hgo, selected_ready hready]

/-- A value is asked for in a state with a block only. -/
theorem exists_block_of_stepOn {t : Table} {now : Instant} {tr : Trace} {value : String}
    {asked : List (String × String)} {p : Stride} (h : tr.stepOn t now value = some (asked, p))
    {e : String × String} (he : e ∈ asked) : ∃ b, t.block? e.1 = some b := by
  unfold stepOn at h
  split at h
  · cases h
    cases he
  · obtain ⟨⟨tr', state⟩, -, hgo⟩ := Option.bind_eq_some_iff.1 h
    unfold goOn at hgo
    split at hgo
    · next b hb =>
      cases hgo
      rw [List.mem_singleton.1 he]
      exact ⟨b, hb⟩
    · obtain ⟨p', -, hgo⟩ := Option.map_eq_some_iff.1 hgo
      cases hgo
      cases he

/-! ## Quiet steps do not read the clock -/

/-- The trace with all its events at one time. -/
def retime (z : Instant) (tr : Trace) : Trace :=
  { tr with events := tr.events.map (Event.withTime z) }

theorem retime_arrive (z now : Instant) (tr : Trace) (state : String) (executed : Bool) :
    (tr.arrive now state executed).retime z = (tr.retime z).arrive z state executed := by
  simp [retime, arrive, Event.withTime]

theorem retime_move (z now : Instant) (tr : Trace) (m : Move) :
    (tr.move now m).retime z = (tr.retime z).move z m := by
  unfold move
  rw [retime_arrive]
  refine congrArg (fun tr' => arrive z tr' _ _) ?_
  simp only [retime, depart, List.map_append, List.map_cons, List.map_nil, Event.withTime]
  rfl

end Trace

/-- The stride with all events of its trace at one time. -/
def Stride.retime (z : Instant) (p : Stride) : Stride :=
  { p with trace := p.trace.retime z }

namespace Trace

open Session (Move)

theorem settle_retime (z now : Instant) (tr : Trace) (m : Move) :
    (tr.retime z).settle z m = (tr.settle now m).retime z := by
  unfold settle
  split
  · simp only [Stride.retime, ← retime_move z now]
    rfl
  · simp only [Stride.retime, ← retime_move z now]

theorem goOn_retime (t : Table) (z now : Instant) (tr : Trace) (state value : String) :
    (tr.retime z).goOn t z state value =
      (tr.goOn t now state value).map fun r => (r.1, r.2.retime z) := by
  unfold goOn
  split
  · exact congrArg some (congrArg (Prod.mk _) (settle_retime z now tr _))
  · unfold leave
    split
    · rfl
    · split
      · rfl
      · split
        · rfl
        · rw [settle_retime z now]
          rfl

theorem ready_retime (t : Table) (z now : Instant) (tr : Trace) :
    (tr.retime z).ready t z = (tr.ready t now).map fun r => (r.1.retime z, r.2) := by
  have hbegin : (tr.retime z).begin t z = (tr.begin t now).map fun r => (r.1.retime z, r.2) := by
    unfold begin
    split
    · rw [Option.map_some, retime_arrive]
      rfl
    · rfl
  obtain ⟨phase, current, counts, events⟩ := tr
  cases current with
  | none => cases phase <;> exact hbegin
  | some state => cases phase <;> first | exact hbegin | rfl

/-- At another time, a quiet step comes to the same but for the times of its events. -/
theorem stepOn_retime (t : Table) (z now : Instant) (tr : Trace) (value : String) :
    (tr.retime z).stepOn t z value =
      (tr.stepOn t now value).map fun r => (r.1, r.2.retime z) := by
  unfold stepOn
  split
  · next h =>
    rw [if_pos (by exact h)]
    rfl
  · next h =>
    rw [if_neg (by exact h), ready_retime t z now]
    cases tr.ready t now with
    | none => rfl
    | some r => exact goOn_retime t z now r.1 r.2 value

end Trace

end TaskTable
