import TaskTable.Proofs.Session.Halted
import TaskTable.Proofs.Session.Recovery
import TaskTable.Proofs.Session.Replay

/-!
# Runs that are held back

A simulated task that an operator holds back takes the transitions that it would have taken anyway,
only later. `Paces` says how a step of such a task relates to quiet steps of its trace: it makes one
of them, or none. So a run with pauses is a run of the trace without them (`schedule_run`), on the
values that were asked for and not lost; a task that is never held back makes the same run with any
supply that gives these values (`pause_only_delays`).
-/

namespace TaskTable

/-! ## Traces that are abreast -/

/-- The transitions that values and errors led to, in order. -/
def Trace.taken (tr : Trace) : List Event :=
  tr.events.filter Event.isTaken

/-- A trace that is another one, or has entered the first state beyond it, but for times. -/
inductive Trace.Abreast (t : Table) (z : Instant) (tr tr' : Trace) : Prop
  | same (same : tr'.retime z = tr.retime z)
  | entered (state : String) (ongoing : tr.phase.isTerminal = false)
      (fresh : tr.phase = .notStarted ∨ tr.current = none)
      (begun : (tr.retime z).begin t z = some (tr'.retime z, state))

namespace Trace

variable {t : Table} {z : Instant} {tr tr' tr'' : Trace}

theorem taken_retime (z : Instant) (tr : Trace) :
    (tr.retime z).taken = tr.taken.map (Event.withTime z) :=
  Event.filter_isTaken_withTime z tr.events

/-- Entering a state is no transition. -/
theorem taken_arrive (now : Instant) (tr : Trace) (state : String) (executed : Bool) :
    (tr.arrive now state executed).taken = tr.taken := by
  show List.filter _ (_ ++ [_]) = _
  rw [List.filter_append]
  exact List.append_nil _

/-- A task that begins is in its first state, and runs. -/
theorem begin_eq_some {now : Instant} {state : String} (h : tr.begin t now = some (tr', state)) :
    tr'.phase = .running ∧ tr'.current = some state ∧ tr'.taken = tr.taken := by
  unfold begin at h
  split at h
  · cases h
    exact ⟨rfl, rfl, taken_arrive _ _ _ _⟩
  · cases h

theorem Abreast.taken (h : Abreast t z tr tr') :
    tr'.taken.map (Event.withTime z) = tr.taken.map (Event.withTime z) := by
  rw [← taken_retime, ← taken_retime]
  cases h with
  | same same => rw [same]
  | entered state ongoing fresh begun => exact (begin_eq_some begun).2.2

/-- What is abreast goes on alike, with the same value. -/
theorem Abreast.stepOn (h : Abreast t z tr tr') (value : String) :
    (tr'.retime z).stepOn t z value = (tr.retime z).stepOn t z value := by
  cases h with
  | same same => rw [same]
  | entered state ongoing fresh begun =>
    obtain ⟨hphase, hcurrent, -⟩ := begin_eq_some begun
    have hfresh : (tr.retime z).phase = .notStarted ∨ (tr.retime z).current = none := fresh
    have hready : (tr.retime z).ready t z = some (tr'.retime z, state) :=
      (ready_of_fresh t z hfresh).trans begun
    have hready' : (tr'.retime z).ready t z = some (tr'.retime z, state) :=
      ready_of_started t z (by rw [hphase]; nofun) hcurrent
    have hongoing : (tr.retime z).phase.isTerminal = false := ongoing
    unfold Trace.stepOn
    rw [hready, hready', hphase, hongoing]
    rfl

theorem Abreast.trans (h : Abreast t z tr tr') (h' : Abreast t z tr' tr'') :
    Abreast t z tr tr'' := by
  cases h with
  | same same =>
    cases h' with
    | same same' => exact .same (same'.trans same)
    | entered state ongoing fresh begun =>
      have hphase : tr'.phase = tr.phase := (congrArg Trace.phase same :)
      have hcurrent : tr'.current = tr.current := (congrArg Trace.current same :)
      rw [hphase] at ongoing
      rw [hphase, hcurrent] at fresh
      exact .entered state ongoing fresh (same ▸ begun)
  | entered state ongoing fresh begun =>
    cases h' with
    | same same' => exact .entered state ongoing fresh (same' ▸ begun)
    | entered state' ongoing' fresh' begun' =>
      -- the first state is entered once
      obtain ⟨hphase, hcurrent, -⟩ := begin_eq_some begun
      rcases fresh' with hfresh | hnowhere
      · cases hphase.symm.trans hfresh
      · cases hcurrent.symm.trans hnowhere

end Trace

namespace Session

variable {σ τ : Type}

/-! ## How a step paces -/

/-- What a step of a simulated task does to its trace: it makes a quiet step of it with what was
asked for and not lost, or leaves it abreast, or the task is over. -/
inductive Paces (z : Instant) (s : Session σ τ) (i : Itinerary) (o : Outcome σ τ) : Prop
  | finished (ended : o.1.isComplete = true) (taken : o.1.trace.taken = s.trace.taken)
      (nothing : Consultation.taken i.consulted.toList = [])
  | stays (quiet : s.signal? = none) (abreast : Trace.Abreast s.table z s.trace o.1.trace)
      (nothing : Consultation.taken i.consulted.toList = [])
  | makes (quiet : s.signal? = none) (now : Instant) (value : String) (p : Stride)
      (step : s.trace.stepOn s.table now value =
        some (Consultation.taken i.consulted.toList, p))
      (trace : o.1.trace = p.trace)

theorem GoesOnFrom.abreast {now : Instant} {s s₁ : Session σ τ} {state : String}
    (h : GoesOnFrom now s s₁ state) (z : Instant) :
    Trace.Abreast s.table z s.trace s₁.trace := by
  cases h with
  | running => exact .same rfl
  | entered ongoing fresh start =>
    refine .entered state ongoing fresh ?_
    unfold Trace.begin
    rw [start, trace_enterStart, Trace.retime_arrive]
    rfl

theorem GoesOnFrom.taken {now : Instant} {s s₁ : Session σ τ} {state : String}
    (h : GoesOnFrom now s s₁ state) : s₁.trace.taken = s.trace.taken := by
  cases h with
  | running => rfl
  | entered ongoing fresh start =>
    rw [trace_enterStart, Trace.taken_arrive]
    rfl

section Stepping

variable [Supply τ] {s : Session σ τ} {x : τ}

/-- Going on in a state fails because the supply gives out, or because the task is over. -/
theorem goOn_of_error {watch : Watch} {now : Instant} {state : String} {fault : Fault}
    (h : (s.goOn watch now state).2 = .error fault) :
    (∃ e, fault = .supply e) ∨ (s.goOn watch now state).1.isComplete = true ∧
      (s.goOn watch now state).1.trace.taken = s.trace.taken := by
  unfold goOn at h ⊢
  cases hblock : s.table.block state with
  | error e =>
    rw [hblock] at h
    dsimp only at h ⊢
    unfold goOnWithoutBlock at h ⊢
    split at h
    · cases h
    · next hfinish =>
      rw [if_neg hfinish]
      split at h
      · cases h
      · next hterminate =>
        rw [if_neg hterminate]
        split at h
        · next hfailure =>
          rw [if_pos hfailure]
          exact .inr ⟨rfl, rfl⟩
        · cases h
  | ok b =>
    rw [hblock] at h
    dsimp only [selectFrom] at h
    split at h
    · cases h
    · generalize s.askValue state b.method = asked at h
      obtain ⟨s', e | trouble | value⟩ := asked
      · cases h
        exact .inl ⟨e, rfl⟩
      · cases h
      · obtain ⟨r, hr⟩ := s'.takeValue_ok watch now b state value
        rw [show (s'.takeValue watch now b state value).2 = _ from h] at hr
        cases hr

/-- A step that is not held back and goes well makes a quiet step of the trace. -/
theorem paces_of_ok {now : Instant} (hsupply : s.supply = some x) (hquiet : s.signal? = none)
    {r : StepResult} (hresult : (s.stepSeeing .clear now).2 = .ok r) (z : Instant) :
    Paces z s (s.itinerary .clear now) (s.stepSeeing .clear now) := by
  obtain ⟨value, asked, p, supply, hmade, hmakes⟩ :=
    stepSeeing_of_ok hquiet (.inl (isSimulating_of_supply hsupply)) hresult
  -- what the trace asks for is what the step recorded
  have hasked : asked = Consultation.taken (s.itinerary .clear now).consulted.toList := by
    have hselected : p.trace.selected = s.trace.selected ++
        Consultation.taken (s.itinerary .clear now).consulted.toList := by
      rw [← hmakes.trace]
      exact (stepSeeing_draws .clear now hsupply).selected_eq
    rw [Trace.selected_stepOn hmade] at hselected
    exact List.append_cancel_left hselected
  exact .makes hquiet now value p (hasked ▸ hmade) hmakes.trace

/-- A step that is not held back and fails has at most entered the first state, or the task is
over. -/
theorem paces_of_error {now : Instant} (hsupply : s.supply = some x)
    (hkeeps : Supply.KeepsPlace x) {first : String} (hstart : s.table.startState = .ok first)
    (hongoing : s.isComplete = false) (hquiet : s.signal? = none) {fault : Fault}
    (hresult : (s.stepSeeing .clear now).2 = .error fault) (z : Instant) :
    Paces z s (s.itinerary .clear now) (s.stepSeeing .clear now) := by
  have hnothing : Consultation.taken (s.itinerary .clear now).consulted.toList = [] := by
    rw [(stepSeeing_draws .clear now hsupply).consulted_of_error hresult]
    rfl
  obtain ⟨s₁, state, hfrom, hgoes⟩ :=
    stepSeeing_goesOn (isSimulating_of_supply hsupply) hongoing hquiet hstart now
  rw [(hgoes .clear rfl).1] at hresult ⊢
  rcases goOn_of_error hresult with ⟨e, rfl⟩ | ⟨hended, htaken⟩
  · refine .stays hquiet ?_ hnothing
    rw [goOn_of_fault (hfrom.supply_eq.trans hsupply) hkeeps hresult]
    exact hfrom.abreast z
  · exact .finished hended (htaken.trans hfrom.taken) hnothing

theorem stepSeeing_paces (watch : Watch) (now : Instant) (hsupply : s.supply = some x)
    (hkeeps : Supply.KeepsPlace x) {first : String} (hstart : s.table.startState = .ok first)
    (z : Instant) :
    Paces z s (s.itinerary watch now) (s.stepSeeing watch now) := by
  cases hongoing : s.isComplete with
  | true =>
    unfold stepSeeing itinerary
    rw [if_pos hongoing, if_pos hongoing]
    exact .finished hongoing rfl rfl
  | false =>
    cases hquiet : s.signal? with
    | some y =>
      rw [stepSeeing_signal hongoing hquiet, itinerary_signal hongoing hquiet]
      exact .finished (terminate_over now _ _).1.phase (terminate_keeps_counts now _ _).2 rfl
    | none =>
      cases hhalt : s.halt? watch now with
      | some look =>
        have hhalts := stepSeeing_halts hsupply hstart hhalt
        generalize s.itinerary watch now = i at hhalts ⊢
        generalize s.stepSeeing watch now = o at hhalts ⊢
        cases hhalts with
        | atStart => exact .stays hquiet (.same rfl) rfl
        | goesOn goesOn halts =>
          cases halts with
          | firstRound | secondRound => exact .stays hquiet (goesOn.abreast z) rfl
      | none =>
        obtain ⟨hstep, hitinerary⟩ :=
          stepSeeing_unhalted (isSimulating_of_supply hsupply) hstart hhalt
        rw [hstep, hitinerary]
        cases hresult : (s.stepSeeing .clear now).2 with
        | ok r => exact paces_of_ok hsupply hquiet hresult z
        | error fault => exact paces_of_error hsupply hkeeps hstart hongoing hquiet hresult z

end Stepping

/-! ## Schedules -/

/-- The steps of a schedule, each with what it sees of the pause flag and at its own time. -/
def scheduled (schedule : List (Watch × Instant)) : List (Action τ) :=
  schedule.map fun p => .step p.1 p.2

section Scheduled

variable [Supply τ]

theorem consultedAlong_step (s : Session σ τ) (watch : Watch) (now : Instant)
    (rest : List (Action τ)) :
    s.consultedAlong (.step watch now :: rest) = (s.itinerary watch now).consulted.toList ++
      (s.stepSeeing watch now).1.consultedAlong rest := by
  rw [consultedAlong_cons]
  show List.flatMap _ [s.itinerary watch now] ++ _ = _
  rw [List.flatMap_singleton]
  rfl

/-- Nothing comes of the steps of a task that has ended. -/
theorem schedule_of_isComplete {s : Session σ τ} (h : s.isComplete = true)
    (schedule : List (Watch × Instant)) :
    s.course (scheduled schedule) = s ∧ s.consultedAlong (scheduled schedule) = [] := by
  induction schedule with
  | nil => exact ⟨rfl, rfl⟩
  | cons p rest ih =>
    have hstep := stepSeeing_of_isComplete h p.1 p.2
    have hitinerary : s.itinerary p.1 p.2 = {} := if_pos h
    constructor
    · show (s.stepSeeing p.1 p.2).1.course (scheduled rest) = s
      rw [hstep]
      exact ih.1
    · show s.consultedAlong (.step p.1 p.2 :: scheduled rest) = []
      rw [consultedAlong_step, hstep, hitinerary]
      exact ih.2

end Scheduled

end Session

/-! ## Scripts -/

/-- What was asked for, as an entry of a script. -/
def Consultation.entry (c : Consultation) : String × String :=
  (c.state, c.value)

namespace AnySupply

/-- A script does not look at the method, and stays a script. -/
theorem next_of_isScript {x : AnySupply} (h : x.isScript = true) (state method method' : String) :
    Supply.next x state method' = Supply.next x state method ∧
      (Supply.next x state method).1.isScript = true := by
  cases x with
  | scripted s => exact ⟨rfl, rfl⟩
  | verifying s => exact ⟨rfl, rfl⟩
  | random s => cases h

end AnySupply

namespace Session

variable {σ : Type} {s : Session σ AnySupply} {x : AnySupply}

/-- A script gives what a step asks for. -/
theorem Draws.feeds {watch : Watch} {i : Itinerary} {o : Outcome σ AnySupply}
    (h : Draws watch s x i o) (hscript : x.isScript = true) :
    ∃ y, o.1.supply = some y ∧ y.isScript = true ∧
      Supply.Feeds x (i.consulted.toList.map Consultation.entry) y := by
  cases h with
  | nothing consulted supply =>
    rw [consulted]
    exact ⟨x, supply, hscript, rfl⟩
  | gaveOut state method y e next consulted supply =>
    have hplace := AnySupply.keepsPlace_of_isScript hscript state method e
    rw [next] at hplace
    cases hplace rfl
    rw [consulted]
    exact ⟨y, supply, hscript, rfl⟩
  | value state method value y next consulted supply
  | lost state method value y next consulted supply =>
    have hkept := (AnySupply.next_of_isScript hscript state method method).2
    rw [next] at hkept
    rw [consulted]
    refine ⟨y, supply, hkept, y, fun method' => ?_, rfl⟩
    exact (AnySupply.next_of_isScript hscript state method method').1.trans next

/-- Along a schedule, a script gives what is asked for, and what is asked for and not lost is
recorded. -/
theorem schedule_feeds (hsupply : s.supply = some x) (hscript : x.isScript = true)
    (schedule : List (Watch × Instant)) :
    (∃ y, (s.course (scheduled schedule)).supply = some y ∧
      Supply.Feeds x ((s.consultedAlong (scheduled schedule)).map Consultation.entry) y) ∧
    (s.course (scheduled schedule)).selected =
      s.selected ++ Consultation.taken (s.consultedAlong (scheduled schedule)) := by
  induction schedule generalizing s x with
  | nil => exact ⟨⟨x, hsupply, rfl⟩, (List.append_nil _).symm⟩
  | cons p rest ih =>
    have hdraws := stepSeeing_draws p.1 p.2 hsupply
    obtain ⟨y, hafter, hscript', hfirst⟩ := hdraws.feeds hscript
    obtain ⟨⟨y', hlast, hrest⟩, hselected⟩ := ih hafter hscript'
    have halong := s.consultedAlong_step p.1 p.2 (scheduled rest)
    constructor
    · refine ⟨y', hlast, ?_⟩
      show Supply.Feeds x ((s.consultedAlong (.step p.1 p.2 :: scheduled rest)).map _) y'
      rw [halong, List.map_append]
      exact hfirst.append hrest
    · show ((s.stepSeeing p.1 p.2).1.course (scheduled rest)).selected =
        s.selected ++ Consultation.taken (s.consultedAlong (.step p.1 p.2 :: scheduled rest))
      rw [halong, Consultation.taken_append, hselected, hdraws.selected_eq, List.append_assoc]

/-- A run along a schedule is a run of its trace on what was asked for and not lost. It has no step
if a signal comes first. -/
theorem schedule_run (hsupply : s.supply = some x) (hscript : x.isScript = true) {first : String}
    (hstart : s.table.startState = .ok first) {z : Instant} {tr : Trace}
    (habreast : Trace.Abreast s.table z tr s.trace) (schedule : List (Watch × Instant)) :
    ∃ paces tr',
      Trace.Run s.table tr (Consultation.taken (s.consultedAlong (scheduled schedule))) paces tr' ∧
      paces.length ≤ schedule.length ∧ (s.signal? ≠ none → paces = []) ∧
      (s.course (scheduled schedule)).trace.taken.map (Event.withTime z) =
        tr'.taken.map (Event.withTime z) := by
  induction schedule generalizing s x tr with
  | nil => exact ⟨[], tr, .nil tr, Nat.le_refl 0, fun _ => rfl, habreast.taken⟩
  | cons p rest ih =>
    obtain ⟨watch, now⟩ := p
    obtain ⟨y, hafter, hscript', -⟩ := (stepSeeing_draws watch now hsupply).feeds hscript
    have htable : (s.stepSeeing watch now).1.table = s.table :=
      (s.stepSeeing_changes watch now).table_eq
    have hpaces := stepSeeing_paces watch now hsupply
      (AnySupply.keepsPlace_of_isScript hscript) hstart z
    have halong : s.consultedAlong (scheduled ((watch, now) :: rest)) = _ :=
      s.consultedAlong_step watch now (scheduled rest)
    have hcourse : s.course (scheduled ((watch, now) :: rest)) =
        (s.stepSeeing watch now).1.course (scheduled rest) := rfl
    rw [halong, hcourse, Consultation.taken_append]
    cases hpaces with
    | finished ended taken nothing =>
      obtain ⟨hcourse, hconsulted⟩ := schedule_of_isComplete ended rest
      rw [hcourse, hconsulted, nothing, taken]
      exact ⟨[], tr, .nil tr, Nat.zero_le _, fun _ => rfl, habreast.taken⟩
    | stays quiet abreast nothing =>
      have hnext : Trace.Abreast (s.stepSeeing watch now).1.table z tr
          (s.stepSeeing watch now).1.trace := by
        rw [htable]
        exact habreast.trans abreast
      obtain ⟨paces, tr', hrun, hlength, -, htaken⟩ := ih hafter hscript' (htable ▸ hstart) hnext
      rw [nothing]
      exact ⟨paces, tr', htable ▸ hrun, Nat.le_succ_of_le hlength, fun h => absurd quiet h, htaken⟩
    | makes quiet now' value p step trace =>
      -- the same quiet step of the trace that is abreast
      obtain ⟨p', hstep', hp'⟩ : ∃ p', tr.stepOn s.table now' value =
          some (Consultation.taken (s.itinerary watch now).consulted.toList, p') ∧
            p'.retime z = p.retime z := by
        have hsame := habreast.stepOn value
        rw [Trace.stepOn_retime s.table z now', Trace.stepOn_retime s.table z now', step] at hsame
        obtain ⟨⟨asked, p'⟩, hp', heq⟩ := Option.map_eq_some_iff.1 hsame.symm
        obtain ⟨rfl, heq⟩ := Prod.mk.inj heq
        exact ⟨p', hp', heq⟩
      have hnext : Trace.Abreast (s.stepSeeing watch now).1.table z p'.trace
          (s.stepSeeing watch now).1.trace := by
        refine .same ?_
        rw [trace]
        exact (congrArg Stride.trace hp').symm
      obtain ⟨paces, tr', hrun, hlength, -, htaken⟩ := ih hafter hscript' (htable ▸ hstart) hnext
      exact ⟨_, tr', .cons now' value hstep' (htable ▸ hrun), Nat.succ_le_succ hlength,
        fun h => absurd quiet h, htaken⟩

/-! ## The flag only delays -/

/-- What the pause flag does to a step. It may halt the step, which takes no transition then; and a
value is lost exactly if the step is halted once it was given, which happens only to a value that
does not resolve. -/
structure OnlyHalts (watch : Watch) (now : Instant) (s : Session σ AnySupply) : Prop where
  unhalted : s.halt? watch now = none → s.stepSeeing watch now = s.stepSeeing .clear now
  halted : ∀ look, s.halt? watch now = some look →
    (s.stepSeeing watch now).2 = .ok (.running s.pauseWait) ∧
      (s.stepSeeing watch now).1.task.recording.taken = s.task.recording.taken ∧
      (look ≠ .secondRound → (s.stepSeeing watch now).1.supply = s.supply)
  lost : ∀ c, (s.itinerary watch now).consulted = some c →
    (c.discarded = true ↔ s.halt? watch now = some .secondRound)
  unresolved : s.halt? watch now = some .secondRound → ∃ c b trouble,
    (s.itinerary watch now).consulted = some c ∧ s.table.block? c.state = some b ∧
      s.resolve b c.state c.value = .error trouble

theorem onlyHalts (hsupply : s.supply = some x) {first : String}
    (hstart : s.table.startState = .ok first) (watch : Watch) (now : Instant) :
    OnlyHalts watch now s := by
  have hunhalted : s.halt? watch now = none → s.stepSeeing watch now = s.stepSeeing .clear now ∧
      s.itinerary watch now = s.itinerary .clear now :=
    stepSeeing_unhalted (isSimulating_of_supply hsupply) hstart
  have hhalted : ∀ look, s.halt? watch now = some look →
      Halts now s x look (s.itinerary watch now) (s.stepSeeing watch now) :=
    fun look => stepSeeing_halts hsupply hstart
  refine ⟨fun h => (hunhalted h).1, fun look hlook => ?_, fun c hc => ?_, fun h => ?_⟩
  · have hhalts := hhalted look hlook
    generalize s.itinerary watch now = i at hhalts
    generalize s.stepSeeing watch now = o at hhalts ⊢
    cases hhalts with
    | atStart => exact ⟨rfl, rfl, fun _ => rfl⟩
    | goesOn goesOn halts =>
      have htaken := goesOn.taken
      cases goesOn <;> cases halts
      · exact ⟨rfl, htaken, fun _ => rfl⟩
      · exact ⟨rfl, htaken, fun h => absurd rfl h⟩
      · exact ⟨rfl, htaken, fun _ => rfl⟩
      · exact ⟨rfl, htaken, fun h => absurd rfl h⟩
  · cases hhalt : s.halt? watch now with
    | none =>
      rw [(hunhalted hhalt).2] at hc
      -- with the flag down, nothing is lost
      have hkept : c.discarded ≠ true := fun hlost =>
        Bool.false_ne_true ((stepSeeing_draws .clear now hsupply).held_of_discarded hc hlost)
      simp [hkept]
    | some look =>
      have hhalts := hhalted look hhalt
      generalize s.itinerary watch now = i at hhalts hc
      generalize s.stepSeeing watch now = o at hhalts
      cases hhalts with
      | atStart => cases hc
      | goesOn goesOn halts =>
        cases halts with
        | firstRound => cases hc
        | secondRound =>
          cases hc
          exact ⟨fun _ => rfl, fun _ => rfl⟩
  · have hhalts := hhalted .secondRound h
    generalize s.itinerary watch now = i at hhalts ⊢
    generalize s.stepSeeing watch now = o at hhalts
    cases hhalts with
    | goesOn goesOn halts =>
      cases halts with
      | secondRound b value y trouble block next refused =>
        refine ⟨_, b, trouble, rfl, ?_, ?_⟩ <;> cases goesOn
        · exact block
        · exact block
        · exact refused
        · exact refused

end Session

/-- Events that are the same but for times are so at any time. -/
theorem Event.map_withTime_congr {es es' : List Event} {z : Instant}
    (h : es.map (Event.withTime z) = es'.map (Event.withTime z)) (z' : Instant) :
    es.map (Event.withTime z') = es'.map (Event.withTime z') := by
  have hat := congrArg (List.map (Event.withTime z')) h
  simp only [List.map_map, Function.comp_def, Session.Event.withTime_withTime] at hat
  exact hat

/-- The same task with another supply, and with nobody to hold it back. -/
def Setup.unpaused {σ τ τ' : Type} (u : Setup σ τ) (supply : τ') : Setup σ τ' :=
  { u with supply := some supply, paused := false }

namespace Session

section Free

variable {σ τ : Type} [Supply τ]

/-- Transitions are never taken back. -/
theorem taken_steps (s : Session σ τ) (times : List Instant) :
    s.trace.taken <+: (s.steps times).1.trace.taken := by
  induction times generalizing s with
  | nil => exact List.prefix_rfl
  | cons now times ih =>
    have hstep : s.trace.events <+: (s.step now).1.trace.events := by
      refine (s.stepSeeing_changes .steady now).keeps
        (P := fun s' => s.trace.events <+: s'.trace.events) (fun s₁ s₂ hchange h => ?_)
        List.prefix_rfl
      have hturns := hchange.turns
      generalize s₂.trace = tr at hturns ⊢
      cases hturns with
      | same | stopped => exact h
      | started => exact h.trans (List.prefix_append _ _)
      | moved now m =>
        rw [Trace.move_events]
        exact h.trans (List.prefix_append _ _)
      | signalled => exact (h.trans (List.prefix_append _ _)).trans (List.prefix_append _ _)
    exact (hstep.filter _).trans (ih (s.step now).1)

end Free

/-- A task that nobody holds back makes the run of its trace on the values that its supply gives.
Where a signal comes first, there is no such run but the empty one. -/
theorem unpaused_taken {σ : Type} {u : Setup σ AnySupply} {now z : Instant}
    {asked : List (String × String)} {paces : List (Nat × Bool)} {tr : Trace}
    (hrun : Trace.Run (u.newSession now).table (u.newSession now).trace asked paces tr)
    (hsignal : (u.newSession now).signal? ≠ none → paces = []) {τ : Type} [Supply τ]
    {source rest : τ} (hsource : Supply.Feeds source asked rest) (now' : Instant)
    {times : List Instant} (htimes : times.length = paces.length) :
    tr.taken.map (Event.withTime z) =
      (((u.unpaused source).newSession now').steps times).1.trace.taken.map (Event.withTime z) := by
  cases hquiet : (u.newSession now).signal? with
  | some signal =>
    have hnone : paces = [] := hsignal (by rw [hquiet]; nofun)
    subst hnone
    rw [List.length_eq_zero_iff.1 htimes]
    cases hrun
    rfl
  | none =>
    obtain ⟨-, -, -, htrace, -⟩ := steps_of_run hrun (z := z)
      (s := (u.unpaused source).newSession now') htimes rfl rfl ⟨rfl, hquiet, rfl⟩ rfl hsource
    rw [← Trace.taken_retime, ← Trace.taken_retime, htrace]

/-- The pause flag delays a simulated run, and loses at most values that do not resolve. Whatever
the steps of a new task see of it, each step that returns because of the flag takes no transition,
and consumes no value unless it is halted after a value that does not resolve. The script gives the
values that are asked for, and those of them that are not lost are recorded, each with its
transition. The transitions taken are those of a run of no more steps in which the flag is always
down and the source gives the values that are not lost, and so a prefix of those of every longer
run; if nothing is lost, the source itself is such a source. -/
theorem pause_only_delays {u : Setup σ AnySupply} {x : AnySupply} (hnew : u.stored = none)
    (hsupply : u.supply = some x) (hscript : x.isScript = true) {now : Instant}
    {s : Session σ AnySupply} (hbuild : (u.build now).2 = .ok s)
    (schedule : List (Watch × Instant)) :
    let consulted := s.consultedAlong (scheduled schedule)
    let last := s.course (scheduled schedule)
    (∀ watch now', last.OnlyHalts watch now') ∧
    (∃ y, last.supply = some y ∧ Supply.Feeds x (consulted.map Consultation.entry) y) ∧
    last.task.recording.selected = Consultation.taken consulted ∧
    ((∀ c ∈ consulted, c.discarded = false) →
      ∃ y, Supply.Feeds x (Consultation.taken consulted) y) ∧
    ∃ m ≤ schedule.length, ∀ (τ : Type) [Supply τ] (source rest : τ),
      Supply.Feeds source (Consultation.taken consulted) rest →
        ∀ (now' : Instant) (times : List Instant) (z : Instant), m ≤ times.length →
          let free := (((u.unpaused source).newSession now').steps times).1
          last.task.recording.taken.map (Event.withTime z) <+:
              free.task.recording.taken.map (Event.withTime z) ∧
            (times.length = m → last.task.recording.taken.map (Event.withTime z) =
              free.task.recording.taken.map (Event.withTime z)) := by
  obtain ⟨rfl, first, hstart⟩ := u.eq_newSession hnew hbuild
  have hfirst : (u.newSession now).supply = some x := hsupply
  obtain ⟨⟨y, hlast, hfeeds⟩, hselected⟩ := schedule_feeds hfirst hscript schedule
  obtain ⟨paces, tr', hrun, hlength, hsignal, htaken⟩ :=
    schedule_run (z := now) hfirst hscript hstart (.same rfl) schedule
  have hstart' : ((u.newSession now).course (scheduled schedule)).table.startState = .ok first := by
    rw [table_course]
    exact hstart
  refine ⟨onlyHalts hlast hstart', ⟨y, hlast, hfeeds⟩, hselected, fun hall => ⟨y, ?_⟩,
    paces.length, hlength, fun τ _ source rest hsource now' times z hle => ?_⟩
  · unfold Consultation.taken
    rw [List.filter_eq_self.2 fun c hc => by rw [hall c hc]; rfl]
    exact hfeeds
  · -- the first steps of the free run make the same run of the trace
    have hsame := htaken.trans
      (unpaused_taken hrun hsignal hsource now' (List.length_take_of_le hle))
    have hlater := taken_steps
      (((u.unpaused source).newSession now').steps (times.take paces.length)).1
      (times.drop paces.length)
    rw [← steps_append, List.take_append_drop] at hlater
    refine ⟨?_, fun heq => ?_⟩
    · suffices h : ((u.newSession now).course (scheduled schedule)).trace.taken.map
          (Event.withTime z) <+:
            (((u.unpaused source).newSession now').steps times).1.trace.taken.map
              (Event.withTime z) from h
      rw [Event.map_withTime_congr hsame z]
      exact hlater.map _
    · rw [List.take_of_length_le (Nat.le_of_eq heq)] at hsame
      exact Event.map_withTime_congr hsame z

/-- A new task of `pollTable` with a script that first gives a value that leads nowhere. -/
def bogusPoll : Setup Unit AnySupply where
  table := pollTable
  handler := Handler.none
  memory := ()
  taskId := "poll"
  supply := some (.verifying (.ofEntries [("poll", "bogus"), ("poll", "done")]))

/-- The flag goes up once the first value was given, and is down again in the second step. -/
def heldBetween : List (Watch × Instant) :=
  [(fun look _ => look = .secondRound, ⟨0, 0⟩), (.clear, ⟨0, 0⟩)]

/-- The first value is lost, and the second one takes its transition, as where the script gives the
second one alone. -/
theorem pause_only_delays_bogusPoll :
    let last := (bogusPoll.newSession ⟨0, 0⟩).course (scheduled heldBetween)
    let free := ((bogusPoll.unpaused (VerifyingSupply.ofEntries [("poll", "done")])).newSession
      ⟨0, 0⟩).steps [⟨0, 0⟩, ⟨0, 0⟩]
    last.task.recording.selected = [("poll", "done")] ∧
      last.task.recording.taken.map (Event.withTime ⟨0, 0⟩) <+:
        free.1.task.recording.taken.map (Event.withTime ⟨0, 0⟩) := by
  have hbuild : (bogusPoll.build ⟨0, 0⟩).2 = .ok (bogusPoll.newSession ⟨0, 0⟩) := rfl
  have hconsulted : Consultation.taken
      ((bogusPoll.newSession ⟨0, 0⟩).consultedAlong (scheduled heldBetween)) =
        [("poll", "done")] := rfl
  obtain ⟨-, -, hselected, -, m, hle, hfree⟩ :=
    pause_only_delays (u := bogusPoll) rfl rfl rfl hbuild heldBetween
  rw [hconsulted] at hselected hfree
  exact ⟨hselected, (hfree VerifyingSupply _ _ (VerifyingSupply.feeds_ofEntries _) ⟨0, 0⟩
    [⟨0, 0⟩, ⟨0, 0⟩] ⟨0, 0⟩ hle).1⟩

/-- The flag can do more than delay a run. A value that leads nowhere is taken off the script in the
first step and never makes its transition, and the transition that is taken in the second step is
not the first one of the run in which the flag is always down. -/
theorem held_value_is_lost :
    let s := bogusPoll.newSession ⟨0, 0⟩
    (bogusPoll.build ⟨0, 0⟩).2 = .ok s ∧
      (s.consultedAlong (scheduled heldBetween)).map Consultation.entry =
        [("poll", "bogus"), ("poll", "done")] ∧
      (s.course (scheduled heldBetween)).task.recording.selected = [("poll", "done")] ∧
      ∀ n, ¬ (s.course (scheduled heldBetween)).task.recording.taken <+:
        (s.course (List.replicate n (.step .clear ⟨0, 0⟩))).task.recording.taken := by
  refine ⟨rfl, rfl, rfl, fun n => ?_⟩
  match n with
  | 0 | 1 => decide
  | n + 2 =>
    -- the task has ended with the second step
    have hended : ((bogusPoll.newSession ⟨0, 0⟩).course
        (List.replicate 2 (.step .clear ⟨0, 0⟩))).isComplete = true := rfl
    have hstays := (schedule_of_isComplete hended (List.replicate n (.clear, ⟨0, 0⟩))).1
    rw [scheduled, List.map_replicate] at hstays
    rw [Nat.add_comm, List.replicate_add, course_append, hstays]
    decide

end Session
end TaskTable
