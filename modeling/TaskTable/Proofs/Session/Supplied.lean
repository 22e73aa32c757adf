import TaskTable.Proofs.Session.Faults
import TaskTable.Proofs.Session.Ledger
import TaskTable.Proofs.Session.Quiet

/-!
# What a simulated step draws

A step of a simulated task asks its supply once at most. `Draws` lists what becomes of that: a value
that is given is recorded with the state that it was asked for in, unless the task is held back
before it takes another value in its place, and then it is lost (`stepSeeing_draws`).
-/

namespace TaskTable
namespace Session

variable {σ τ : Type}

/-- The states in which values were asked for so far, each with its value. -/
def selected (s : Session σ τ) : List (String × String) :=
  s.task.recording.selected

theorem selected_enterStart (s : Session σ τ) (now : Instant) (state : String) :
    (s.enterStart now state).selected = s.selected := by
  show (s.enterStart now state).trace.selected = s.trace.selected
  simp [trace_enterStart, Trace.selected, Trace.arrive, Trace.stop, Event.selected?]

/-- No selector asks for a termination. -/
theorem selected_terminate (now : Instant) (s : Session σ τ) (reason : String) :
    (s.terminate now reason).1.selected = s.selected := by
  suffices h : (s.terminate now reason).1.trace.selected = s.trace.selected from h
  unfold terminate
  dsimp only
  split
  · rw [trace_complete, trace_enterLive]
    rfl
  · split
    · rw [trace_complete, trace_setExit, trace_enterLive, trace_arrive, trace_record]
      simp [Trace.stop, Trace.arrive, Trace.record, Trace.selected, Event.selected?]
    · rw [trace_complete, trace_setExit]
      rfl

section Drawing

variable [Supply τ]

/-- What a step gets from the supply `x` of a task on its itinerary, and what it comes to. -/
inductive Draws (watch : Watch) (s : Session σ τ) (x : τ) (i : Itinerary) (o : Outcome σ τ) : Prop
  /-- It asks for no value. -/
  | nothing (consulted : i.consulted = none) (supply : o.1.supply = some x)
      (selected : o.1.selected = s.selected) (fault : ∀ e, o.2 ≠ .error (.supply e))
  | gaveOut (state method : String) (y : τ) (e : SupplyError)
      (next : Supply.next x state method = (y, .error e)) (consulted : i.consulted = none)
      (supply : o.1.supply = some y) (selected : o.1.selected = s.selected)
      (result : o.2 = .error (.supply e))
  | value (state method value : String) (y : τ)
      (next : Supply.next x state method = (y, .ok value))
      (consulted : i.consulted = some ⟨state, method, value, false⟩) (supply : o.1.supply = some y)
      (selected : o.1.selected = s.selected ++ [(state, value)]) (result : ∃ r, o.2 = .ok r)
  /-- The task is held back with a value that does not resolve. -/
  | lost (state method value : String) (y : τ)
      (next : Supply.next x state method = (y, .ok value))
      (consulted : i.consulted = some ⟨state, method, value, true⟩) (supply : o.1.supply = some y)
      (selected : o.1.selected = s.selected) (result : o.2 = .ok (.running s.pauseWait))
      (held : watch .secondRound s.paused = true)

variable {watch : Watch} {now : Instant} {s : Session σ τ} {x : τ}

omit [Supply τ] in
theorem isSimulating_of_supply (h : s.supply = some x) : s.isSimulating = true :=
  congrArg Option.isSome h

omit [Supply τ] in
/-- A simulated task makes one move at a time, which adds the value that it is made on. -/
theorem Trail.of_isSimulating {m : Move} {ms : List Move} {r : Stepped σ τ}
    (htrail : Trail now s m ms r) (h : s.isSimulating = true) :
    ms = [m] ∧ r.1.supply = s.supply ∧ r.1.selected = s.selected ++
      (if m.kind = .selector then [(m.origin, m.requested.getD m.value)] else []) := by
  have htarget := enterTarget_of_isSimulating h now m
  have hsupply : (s.move now m).supply = s.supply := by rw [move_eq_updateTask]; rfl
  have hselected : (s.move now m).selected = s.selected ++
      (if m.kind = .selector then [(m.origin, m.requested.getD m.value)] else []) := by
    have hsettle := Trace.selected_settle now s.trace m
    have hmove : (s.trace.settle now m).trace.selected = (s.trace.move now m).selected := by
      unfold Trace.settle
      split <;> rfl
    rw [hmove, ← trace_move] at hsettle
    exact hsettle
  cases htrail with
  | arrived entered | finished entered =>
    rw [htarget] at entered
    cases entered
    exact ⟨rfl, hsupply, hselected⟩
  | passed entered | erred entered =>
    rw [htarget] at entered
    cases entered

omit [Supply τ] in
/-- No move is chosen only where the task is held back with a value that does not resolve. -/
theorem choose_eq_none {s' : Session σ τ} {b : Block} {state : String}
    {answer : Except Trouble String} (h : s.choose watch b state answer = (s', none)) :
    watch .secondRound s.paused = true ∧ ∃ value trouble, answer = .ok value ∧
      s.resolve b state value = .error trouble ∧ s' = s.note trouble := by
  unfold choose at h
  split at h
  · cases h
  · next value =>
    split at h
    · cases h
    · split at h
      · cases h
      · next trouble hresolve =>
        split at h
        · next hheld =>
          exact ⟨hheld, value, trouble, rfl, hresolve, (congrArg Prod.fst h).symm⟩
        · cases h

/-- A simulated task asks its supply, and whatever is given is a value. -/
theorem askValue_of_supply (h : s.supply = some x) (state method : String) :
    s.askValue state method =
      ({ s with supply := some (Supply.next x state method).1 },
        (Supply.next x state method).2.map .ok) := by
  unfold askValue
  rw [h]
  dsimp only
  generalize Supply.next x state method = given
  obtain ⟨y, e | value⟩ := given <;> rfl

theorem GoesOn.draws {state : String} {i : Itinerary} {o : Outcome σ τ}
    (hgoes : GoesOn watch now s state i o) (hsupply : s.supply = some x) :
    Draws watch s x i o := by
  have hsimulating := isSimulating_of_supply hsupply
  cases hgoes with
  | waits => exact .nothing rfl hsupply rfl nofun
  | @gaveOut b s' e asked =>
    rw [askValue_of_supply hsupply] at asked
    generalize hnext : Supply.next x state b.method = given at asked
    obtain ⟨y, e' | value⟩ := given
    · cases asked
      exact .gaveOut state b.method y e hnext rfl rfl rfl rfl
    · cases asked
  | @heldBack b s' s'' answer asked chosen =>
    rw [askValue_of_supply hsupply] at asked
    generalize hnext : Supply.next x state b.method = given at asked
    obtain ⟨y, e | value⟩ := given
    · cases asked
    · cases asked
      obtain ⟨hheld, _, trouble, -, -, rfl⟩ := choose_eq_none chosen
      exact .lost state b.method value y hnext rfl rfl rfl rfl hheld
  | @moved b s' s'' answer m ms r asked chosen trail =>
    rw [askValue_of_supply hsupply] at asked
    generalize hnext : Supply.next x state b.method = given at asked
    obtain ⟨y, e | value⟩ := given
    · cases asked
    · cases asked
      -- choosing the move does no more than note a problem
      have hkeeps : s''.isSimulating = true ∧ s''.supply = some y ∧ s''.selected = s.selected := by
        have hnotes := choose_notes watch { s with supply := some y } b state (.ok value)
        rw [chosen] at hnotes
        rcases hnotes with h | ⟨trouble, h⟩ <;> cases h <;> exact ⟨rfl, rfl, rfl⟩
      obtain ⟨hkind, horigin, hvalue⟩ := choose_records chosen
      obtain ⟨-, hafter, hselected⟩ := trail.of_isSimulating hkeeps.1
      rw [if_pos hkind, horigin, hvalue, hkeeps.2.2] at hselected
      exact .value state b.method value y hnext rfl (hafter.trans hkeeps.2.1) hselected ⟨_, rfl⟩
  | halted missing builtin =>
    obtain ⟨set, exit, phase, -, hhalted⟩ :=
      goOnWithoutBlock_builtin now s (.missingBlock state) builtin
    refine .nothing rfl ?_ ?_ (goOnWithoutBlock_ne_supply now s state _)
    · rw [hhalted]
      exact hsupply
    · rw [hhalted]
      rfl
  | @lost e ms r trail =>
    obtain ⟨-, hafter, hselected⟩ := trail.of_isSimulating hsimulating
    rw [if_neg Origin.noConfusion, List.append_nil] at hselected
    exact .nothing rfl (hafter.trans hsupply) hselected nofun

/-- What a step of a simulated task draws from its supply. -/
theorem stepSeeing_draws (watch : Watch) (now : Instant) (hsupply : s.supply = some x) :
    Draws watch s x (s.itinerary watch now) (s.stepSeeing watch now) := by
  have hsimulating := isSimulating_of_supply hsupply
  have hlive : ∀ state, (s.enterStart now state).enterLive state none =
      (s.enterStart now state, none) :=
    fun state => enterLive_of_isSimulating (s := s.enterStart now state) hsimulating _ _
  have hturn := s.stepSeeing_turn watch now
  generalize s.itinerary watch now = i at hturn ⊢
  generalize s.stepSeeing watch now = o at hturn ⊢
  cases hturn with
  | ended | held | unstartable => exact .nothing rfl hsupply rfl nofun
  | signalled =>
    exact .nothing rfl ((terminate_keeps now _ _).2.1.trans hsupply) (selected_terminate now _ _)
      nofun
  | startPassed _ _ entered | startErred _ _ entered =>
    rw [hlive] at entered
    cases entered
  | @started state s' i o _ _ entered goesOn =>
    rw [hlive] at entered
    cases entered
    have hselected := s.selected_enterStart now state
    cases goesOn.draws (s := s.enterStart now state) hsupply with
    | nothing consulted supply selected fault =>
      exact .nothing consulted supply (selected.trans hselected) fault
    | gaveOut st method y e next consulted supply selected result =>
      exact .gaveOut st method y e next consulted supply (selected.trans hselected) result
    | value st method v y next consulted supply selected result =>
      exact .value st method v y next consulted supply (hselected ▸ selected) result
    | lost st method v y next consulted supply selected result held =>
      exact .lost st method v y next consulted supply (selected.trans hselected) result held
  | goesOn _ _ goesOn => exact goesOn.draws hsupply

/-- What is recorded as selected is what was asked for and not lost. -/
theorem Draws.selected_eq {i : Itinerary} {o : Outcome σ τ} (h : Draws watch s x i o) :
    o.1.selected = s.selected ++ Consultation.taken i.consulted.toList := by
  cases h with
  | nothing consulted _ selected | gaveOut _ _ _ _ _ consulted _ selected =>
    rw [consulted, selected]
    exact (List.append_nil _).symm
  | value _ _ _ _ _ consulted _ selected =>
    rw [consulted, selected]
    rfl
  | lost _ _ _ _ _ consulted _ selected =>
    rw [consulted, selected]
    exact (List.append_nil _).symm

/-- A step that fails was given nothing. -/
theorem Draws.consulted_of_error {i : Itinerary} {o : Outcome σ τ} (h : Draws watch s x i o)
    {fault : Fault} (herror : o.2 = .error fault) : i.consulted = none := by
  cases h with
  | nothing consulted | gaveOut _ _ _ _ _ consulted => exact consulted
  | value _ _ _ _ _ _ _ _ result =>
    obtain ⟨r, hr⟩ := result
    cases hr.symm.trans herror
  | lost _ _ _ _ _ _ _ _ result => cases result.symm.trans herror

/-- What is asked for is lost only where the task is held back. -/
theorem Draws.held_of_discarded {i : Itinerary} {o : Outcome σ τ} (h : Draws watch s x i o)
    {c : Consultation} (hc : i.consulted = some c) (hlost : c.discarded = true) :
    watch .secondRound s.paused = true := by
  cases h with
  | nothing consulted | gaveOut _ _ _ _ _ consulted => cases consulted.symm.trans hc
  | value _ _ _ _ _ consulted =>
    cases consulted.symm.trans hc
    cases hlost
  | lost _ _ _ _ _ _ _ _ _ held => exact held

end Drawing

end Session
end TaskTable
