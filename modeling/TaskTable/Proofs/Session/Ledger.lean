import TaskTable.Proofs.Session.Bounds
import TaskTable.Proofs.Session.Itinerary

/-!
# Calls and events

A live task records what its handler is called for. Each state that is entered with its handler is
recorded as executed, and each value that a selector gives is recorded with the transition it led to
(`recording_tells_calls`). A step books both at once: its calls and events are those of its
itinerary.
-/

namespace TaskTable

/-- The state whose handler was run. -/
def Handler.Call.entered? : Handler.Call → Option String
  | entered visit _ _ _ => some visit.state
  | _ => .none

/-- The value that a selector came to: `!` where it failed. -/
def Handler.Call.value? : Handler.Call → Option String
  | selected _ _ _ _ answer => some (answer.toOption.getD Names.error)
  | _ => .none

/-- The state that was entered with its handler, if there is one in the catalog. -/
def Event.executed? (c : Catalog) : Event → Option String
  | state name executed _ => if executed && c.hasState name then some name else none
  | transition .. => none

/-- An arrival tells of the handler that it lets run, if there is one. -/
theorem Event.executed_state (c : Catalog) (state : String) (executed : Bool) (now : Instant) :
    [Event.state state executed now].filterMap (Event.executed? c) =
      if executed && c.hasState state then [state] else [] := by
  cases executed <;> cases h : c.hasState state <;> simp [executed?, h]

/-- The value of a method without a selector. -/
def Names.standIn (method : String) : String :=
  if method = Names.emptyTransition then "" else Names.error

namespace Session

variable {σ τ : Type} {s s' : LoggedSession σ τ} {h : Handler σ}

/-! ## Calls of a logged session -/

/-- The ways in which the handler of a state runs, with the call that is logged. -/
inductive EntersLogged (h : Handler σ) (s : LoggedSession σ τ) (state : String)
    (cause : Option String) : LoggedSession σ τ × Option Trouble → Prop
  | called (memory : σ) (left : Desk) (answer : Except String Unit) (live : s.supply = none)
      (known : h.catalog.hasState state = true) :
      EntersLogged h s state cause
        (s.afterCall state
          ⟨memory, s.memory.log ++ [.entered (s.visit state cause) (s.desk state) left answer]⟩
          left,
          match answer with
          | .ok () => none
          | .error message => some (.stateFailed state message))
  | uncalled (trouble : Option Trouble)
      (unknown : s.supply = none → h.catalog.hasState state = false)
      (builtin : Names.isBuiltin state = true → trouble = none) :
      EntersLogged h s state cause (s, trouble)

theorem enterLive_entersLogged (hlogged : s.handler = h.logged) (state : String)
    (cause : Option String) : EntersLogged h s state cause (s.enterLive state cause) := by
  unfold enterLive isSimulating
  cases hsupply : s.supply with
  | some supply =>
    have hsimulated : ¬ s.supply = none := by simp [hsupply]
    exact .uncalled none (fun hnone => absurd hnone hsimulated) fun _ => rfl
  | none =>
    unfold callState
    rw [hlogged, h.logged_catalog, h.logged_enter]
    simp only [Option.isSome_none, Bool.false_eq_true, if_false]
    split
    · next hknown =>
      generalize h.enter s.memory.inner (s.visit state cause) (s.desk state) = called
      obtain ⟨memory, left, message | ⟨⟩⟩ := called
      · exact .called memory left (.error message) hsupply hknown
      · exact .called memory left (.ok ()) hsupply hknown
    · next hunknown =>
      have hunknown : h.catalog.hasState state = false := by simpa using hunknown
      split
      · exact .uncalled none (fun _ => hunknown) fun _ => rfl
      · next hbuiltin => exact .uncalled _ (fun _ => hunknown) fun h => absurd h hbuiltin

/-- The ways in which a value is asked for, with the call that is logged. -/
inductive AsksLogged (h : Handler σ) (s : LoggedSession σ τ) (state method : String) :
    LoggedSession σ τ × Except SupplyError (Except Trouble String) → Prop
  | called (memory : σ) (left : Desk) (answer : Except String String)
      (known : h.catalog.hasSelector method = true) :
      AsksLogged h s state method
        (s.afterCall state
          ⟨memory,
            s.memory.log ++ [.selected method (s.visit state none) (s.desk state) left answer]⟩ left,
          .ok (answer.mapError (.selectorFailed method)))
  /-- There is no selector. -/
  | standIn (answer : Except Trouble String) (unknown : h.catalog.hasSelector method = false)
      (value : answered answer = Names.standIn method) :
      AsksLogged h s state method (s, .ok answer)
  | supplied (before after : Logged τ Question)
      (answer : Except SupplyError (Except Trouble String))
      (simulated : s.supply = some before) :
      AsksLogged h s state method ({ s with supply := some after }, answer)

theorem askValue_asksLogged [Supply τ] (hlogged : s.handler = h.logged) (state method : String) :
    AsksLogged h s state method (s.askValue state method) := by
  unfold askValue
  cases hsupply : s.supply with
  | some supply =>
    dsimp only
    split
    · exact .supplied supply _ _ hsupply
    · exact .supplied supply _ _ hsupply
  | none =>
    dsimp only
    unfold callSelector
    rw [hlogged, h.logged_catalog, h.logged_select]
    split
    · next hknown =>
      generalize h.select s.memory.inner method (s.visit state none) (s.desk state) = called
      obtain ⟨memory, left, message | value⟩ := called
      · exact .called memory left (.error message) hknown
      · exact .called memory left (.ok value) hknown
    · next hunknown =>
      have hunknown : h.catalog.hasSelector method = false := by simpa using hunknown
      split
      · next hempty => exact .standIn _ hunknown (if_pos hempty).symm
      · next hneeded => exact .standIn _ hunknown (if_neg hneeded).symm

end Session

/-- The values that came to something, each with the state that it was asked for in. -/
def Consultation.taken (cs : List Consultation) : List (String × String) :=
  (cs.filter (!·.discarded)).map fun x => (x.state, x.value)

theorem Consultation.taken_append (cs cs' : List Consultation) :
    Consultation.taken (cs ++ cs') = Consultation.taken cs ++ Consultation.taken cs' := by
  simp [Consultation.taken]

/-- The values that selectors of a catalog gave. -/
def Consultation.given (c : Catalog) (cs : List Consultation) : List String :=
  (cs.filter (c.hasSelector ·.method)).map (·.value)

namespace Session

variable {σ τ : Type} {s s' s'' : LoggedSession σ τ} {h : Handler σ} {state : String}
  {cs cs' : List Consultation} {es es' : List Event}

/-! ## Booking -/

/-- What was done to a live session is booked: its new events tell of the handlers that ran, and its
new calls of the values that were asked for. -/
structure Books (h : Handler σ) (s s' : LoggedSession σ τ) (cs : List Consultation)
    (es : List Event) : Prop where
  live : s'.supply = none
  handler : s'.handler = s.handler
  events : s'.task.recording.events = s.task.recording.events ++ es
  calls : ∃ calls : List Handler.Call, s'.memory.log = s.memory.log ++ calls ∧
    calls.filterMap Handler.Call.entered? = es.filterMap (Event.executed? h.catalog) ∧
    calls.filterMap Handler.Call.value? = Consultation.given h.catalog cs
  standIns : ∀ x ∈ cs, h.catalog.hasSelector x.method = false → x.value = Names.standIn x.method

theorem Books.trans (hs : Books h s s' cs es) (hs' : Books h s' s'' cs' es') :
    Books h s s'' (cs ++ cs') (es ++ es') where
  live := hs'.live
  handler := hs'.handler.trans hs.handler
  events := by rw [hs'.events, hs.events, List.append_assoc]
  calls := by
    obtain ⟨calls, hlog, hentered, hgiven⟩ := hs.calls
    obtain ⟨calls', hlog', hentered', hgiven'⟩ := hs'.calls
    refine ⟨calls ++ calls', by rw [hlog', hlog, List.append_assoc], ?_, ?_⟩
    · rw [List.filterMap_append, List.filterMap_append, hentered, hentered']
    · rw [List.filterMap_append, hgiven, hgiven']
      simp [Consultation.given]
  standIns x hx := (List.mem_append.1 hx).elim (hs.standIns x) (hs'.standIns x)

/-- What makes no calls is booked if its events tell of none. -/
theorem Does.books (hdoes : Does s s' { events := es }) (hlive : s'.supply = none)
    (hnone : es.filterMap (Event.executed? h.catalog) = []) : Books h s s' [] es where
  live := hlive
  handler := hdoes.handler
  events := hdoes.events
  calls := ⟨[], hdoes.calls, hnone.symm, rfl⟩
  standIns := by simp

theorem Books.refl (hlive : s.supply = none) : Books h s s [] [] :=
  (Does.refl s).books hlive rfl

theorem Books.note (hs : Books h s s' cs es) (t : Trouble) : Books h s (s'.note t) cs es :=
  ⟨hs.live, hs.handler, hs.events, hs.calls, hs.standIns⟩

/-- An operation on the task does no more than it records. -/
theorem Books.updateTask (hs : Books h s s' cs es) {f : Task → Task}
    (hevents : (f s'.task).recording.events = s'.task.recording.events) :
    Books h s (s'.updateTask f) cs es :=
  ⟨hs.live, hs.handler, hevents.trans hs.events, hs.calls, hs.standIns⟩

theorem Books.complete (hs : Books h s s' cs es) (now : Instant) (phase : Phase) (exit : Exit) :
    Books h s (s'.complete now phase exit) cs es :=
  ⟨hs.live, hs.handler, hs.events, hs.calls, hs.standIns⟩

/-- A handler that is run for a state is booked by the events that tell of it. -/
theorem Does.books_enterLive (hdoes : Does s s' { events := es }) (hlogged : s.handler = h.logged)
    (hlive : s'.supply = none)
    (htold : es.filterMap (Event.executed? h.catalog) =
      if h.catalog.hasState state then [state] else []) (cause : Option String) :
    Books h s (s'.enterLive state cause).1 [] es := by
  have henters := enterLive_entersLogged (hdoes.handler.trans hlogged) state cause
  generalize s'.enterLive state cause = entered at henters ⊢
  cases henters with
  | called memory left answer live known =>
    refine ⟨hlive, hdoes.handler, hdoes.events, ?_, by simp⟩
    refine ⟨[.entered (s'.visit state cause) (s'.desk state) left answer], ?_, ?_, rfl⟩
    · exact congrArg (· ++ _) (hdoes.calls.trans (List.append_nil _))
    · rw [htold, if_pos known]
      rfl
  | uncalled trouble unknown => exact hdoes.books hlive (by simp [htold, unknown hlive])

/-- Asking for a value is booked with what it is going to come to. -/
theorem askValue_books [Supply τ] (hlogged : s.handler = h.logged) (hlive : s.supply = none)
    {method : String} {answer : Except SupplyError (Except Trouble String)}
    (hasked : s.askValue state method = (s', answer)) :
    ∃ a, answer = .ok a ∧
      ∀ discarded, Books h s s' [⟨state, method, answered a, discarded⟩] [] := by
  have hasks := askValue_asksLogged hlogged state method
  rw [hasked] at hasks
  cases hasks with
  | called memory left a known =>
    refine ⟨_, rfl, fun discarded => ⟨hlive, rfl, (List.append_nil _).symm, ?_, ?_⟩⟩
    · refine ⟨_, rfl, rfl, ?_⟩
      cases a <;> simp [Consultation.given, known] <;> rfl
    · simp [known]
  | standIn a unknown value =>
    refine ⟨a, rfl, fun discarded => ⟨hlive, rfl, (List.append_nil _).symm, ?_, ?_⟩⟩
    · exact ⟨[], (List.append_nil _).symm, rfl, by simp [Consultation.given, unknown]⟩
    · simp [value]
  | supplied before after answer simulated =>
    rw [hlive] at simulated
    cases simulated

/-! ## Moves -/

/-- The events of moves. -/
def crossings (now : Instant) (ms : List Move) : List Event :=
  ms.flatMap fun m => (m.crossing now).events

theorem executed_crossing (c : Catalog) (now : Instant) (m : Move) :
    (crossings now [m]).filterMap (Event.executed? c) =
      if m.transition.exec && c.hasState m.transition.target then [m.transition.target] else [] :=
  Event.executed_state c m.transition.target m.transition.exec now

theorem enterTarget_books (hlogged : s.handler = h.logged) (hlive : s.supply = none)
    {now : Instant} {m : Move} {trouble : Option Trouble}
    (hentered : s.enterTarget now m = (s', trouble)) : Books h s s' [] (crossings now [m]) := by
  have hdoes : Does s (s.move now m) { events := crossings now [m] } := s.does_move now m
  have hlive : (s.move now m).supply = none := by
    rw [move_eq_updateTask]
    exact hlive
  have htold := executed_crossing h.catalog now m
  suffices hbooks : Books h s (s.enterTarget now m).1 [] (crossings now [m]) by
    rwa [hentered] at hbooks
  unfold enterTarget
  split
  · next hexec =>
    rw [hexec, Bool.true_and] at htold
    exact hdoes.books_enterLive hlogged hlive htold _
  · next hexec =>
    rw [Bool.not_eq_true] at hexec
    rw [hexec] at htold
    exact hdoes.books hlive htold

/-- All moves of a trail are booked. -/
theorem Trail.books {now : Instant} {m : Move} {ms : List Move}
    {r : Stepped (Logged σ Handler.Call) (Logged τ Question)} (htrail : Trail now s m ms r)
    (hlogged : s.handler = h.logged) (hlive : s.supply = none) :
    Books h s r.1 [] (crossings now ms) := by
  induction htrail with
  | arrived entered => exact enterTarget_books hlogged hlive entered
  | finished entered => exact (enterTarget_books hlogged hlive entered).complete now _ _
  | passed entered => exact (enterTarget_books hlogged hlive entered).note _
  | @erred _ _ _ trouble _ _ _ entered _ _ ih =>
    have hnoted := (enterTarget_books hlogged hlive entered).note trouble
    exact hnoted.trans (ih (hnoted.handler.trans hlogged) hnoted.live)

/-- Only the first move of a trail can come of a value that was asked for. -/
theorem Trail.taken {σ τ : Type} {s : Session σ τ} {now : Instant} {m : Move} {ms : List Move}
    {r : Stepped σ τ} (htrail : Trail now s m ms r) :
    (crossings now ms).filterMap Event.selected? =
      if m.kind = .selector then [(m.origin, m.requested.getD m.value)] else [] := by
  have hfirst : ∀ m : Move, (crossings now [m]).filterMap Event.selected? =
      if m.kind = .selector then [(m.origin, m.requested.getD m.value)] else [] := by
    intro m
    show [_, _].filterMap Event.selected? = _
    cases hkind : m.kind <;> simp [Event.selected?, Move.crossing, hkind]
  induction htrail with
  | arrived | finished | passed => exact hfirst _
  | @erred _ _ m _ _ ms _ _ _ _ ih =>
    -- what follows a problem records no value
    have hrest : (crossings now ms).filterMap Event.selected? = [] :=
      ih.trans (if_neg Origin.noConfusion)
    show (crossings now [m] ++ crossings now ms).filterMap Event.selected? = _
    rw [List.filterMap_append, hfirst, hrest, List.append_nil]

/-- The result of a trail asks for the wait of its last move. -/
theorem Trail.wait {σ τ : Type} {s : Session σ τ} {now : Instant} {m last : Move} {ms : List Move}
    {r : Stepped σ τ} (htrail : Trail now s m ms r) (hlast : ms.getLast? = some last) :
    r.2.wait = last.transition.wait := by
  induction htrail with
  | arrived | finished | passed =>
    cases hlast
    rfl
  | erred _ _ rest ih =>
    refine ih ?_
    cases rest <;> exact hlast

/-! ## Steps -/

section Asking

variable [Supply τ]

omit [Supply τ] in
/-- Choosing a move does no more than note a problem. -/
theorem Books.choose (hs : Books h s s' cs es) {watch : Watch} {b : Block}
    {answer : Except Trouble String} {m : Option Move}
    (hchosen : s'.choose watch b state answer = (s'', m)) : Books h s s'' cs es := by
  have hnotes := choose_notes watch s' b state answer
  rw [hchosen] at hnotes
  rcases hnotes with rfl | ⟨trouble, rfl⟩
  · exact hs
  · exact hs.note trouble

theorem GoesOn.books {watch : Watch} {now : Instant} {i : Itinerary}
    {o : Outcome (Logged σ Handler.Call) (Logged τ Question)}
    (hgoes : GoesOn watch now s state i o) (hlogged : s.handler = h.logged)
    (hlive : s.supply = none) :
    Books h s o.1 i.consulted.toList (crossings now i.moves) ∧
      (crossings now i.moves).filterMap Event.selected? =
        Consultation.taken i.consulted.toList := by
  cases hgoes with
  | waits => exact ⟨.refl hlive, rfl⟩
  | gaveOut asked =>
    obtain ⟨_, hok, -⟩ := askValue_books hlogged hlive asked
    cases hok
  | heldBack asked chosen =>
    obtain ⟨_, ⟨⟩, hasked⟩ := askValue_books hlogged hlive asked
    exact ⟨(hasked true).choose chosen, rfl⟩
  | moved asked chosen trail =>
    obtain ⟨_, ⟨⟩, hasked⟩ := askValue_books hlogged hlive asked
    obtain ⟨hkind, horigin, hvalue⟩ := choose_records chosen
    have hchosen := (hasked false).choose chosen
    refine ⟨hchosen.trans (trail.books (hchosen.handler.trans hlogged) hchosen.live), ?_⟩
    rw [trail.taken, if_pos hkind, horigin, hvalue]
    rfl
  | halted missing builtin =>
    refine ⟨?_, rfl⟩
    obtain ⟨set, exit, phase, -, hhalted⟩ :=
      goOnWithoutBlock_builtin now s (.missingBlock state) builtin
    rw [hhalted]
    exact ((Books.refl hlive).updateTask rfl).complete now phase exit
  | @lost e _ _ trail =>
    have hnoted := (Books.refl (h := h) hlive).note (.dangling e)
    exact ⟨hnoted.trans (trail.books hlogged hlive), trail.taken⟩

omit [Supply τ] in
theorem enterStart_books (hlogged : s.handler = h.logged) (hlive : s.supply = none) (now : Instant)
    {trouble : Option Trouble}
    (hentered : (s.enterStart now state).enterLive state none = (s', trouble)) :
    Books h s s' [] [.state state true now] := by
  have hbooks := (s.does_enterStart now state).books_enterLive hlogged hlive
    (Event.executed_state h.catalog state true now) none
  rwa [hentered] at hbooks

/-- The events of a task that a signal leads to `terminate`. -/
def summons (s : Session σ τ) (now : Instant) : List Event :=
  [.transition (s.task.current.getD "") (s.methodOf (s.task.current.getD ""))
      Names.terminateRequested none .signal now,
    .state Names.terminate true now]

omit [Supply τ] in
/-- Terminating a task that has started runs the handler of `terminate` if that state is entered. -/
theorem terminate_books (hlogged : s.handler = h.logged) (hlive : s.supply = none)
    (hstarted : s.task.phase ≠ .notStarted) (now : Instant) (reason : String) :
    ∃ es, (es = [] ∨ es = s.summons now) ∧ Books h s (s.terminate now reason).1 [] es := by
  unfold terminate
  dsimp only
  rw [if_neg hstarted]
  split
  · have hdoes := (s.does_record (.transition (s.task.current.getD "")
      (s.methodOf (s.task.current.getD "")) Names.terminateRequested none .signal now)).trans
        (does_arrive _ now Names.terminate true)
    have hentered := hdoes.books_enterLive hlogged hlive
      (Event.executed_state h.catalog Names.terminate true now) (some reason)
    exact ⟨_, .inr rfl, (hentered.updateTask rfl).complete now _ _⟩
  · exact ⟨[], .inl rfl, ((Books.refl hlive).updateTask rfl).complete now _ _⟩

/-- What a step records beside its moves: the state in which the task starts, or that a signal leads
it to `terminate`. -/
inductive Opens (s : Session σ τ) (now : Instant) : List Event → Prop
  | nothing : Opens s now []
  | started (state : String) (start : s.table.startState = .ok state) :
      Opens s now [.state state true now]
  | summoned (pending : s.signal?.isSome = true) : Opens s now (s.summons now)

omit [Supply τ] in
theorem Opens.taken {s : Session σ τ} {now : Instant} {es : List Event} (hopens : s.Opens now es) :
    es.filterMap Event.selected? = [] := by
  cases hopens <;> rfl

/-- What a step does is booked, unless it ends the task before it starts. -/
theorem Turn.books {watch : Watch} {now : Instant} {i : Itinerary}
    {o : Outcome (Logged σ Handler.Call) (Logged τ Question)} (hturn : Turn watch now s i o)
    (hlogged : s.handler = h.logged) (hlive : s.supply = none)
    (hstarts : s.task.phase = .notStarted → s.signal? = none) :
    ∃ es, s.Opens now es ∧ Books h s o.1 i.consulted.toList (es ++ crossings now i.moves) ∧
      (crossings now i.moves).filterMap Event.selected? =
        Consultation.taken i.consulted.toList := by
  cases hturn with
  | ended | held | unstartable => exact ⟨[], .nothing, .refl hlive, rfl⟩
  | signalled x ongoing pending =>
    have hstarted : s.task.phase ≠ .notStarted := by
      intro hphase
      rw [hstarts hphase] at pending
      cases pending
    -- consuming the signal is no deed
    obtain ⟨es, hes, hbooks⟩ := terminate_books (h := h)
      (s := { s with queue := s.queue.consume s.task.id x.id }) hlogged hlive hstarted now x.text
    refine ⟨es, ?_, ⟨hbooks.live, hbooks.handler, ?_, ?_, hbooks.standIns⟩, rfl⟩
    · rcases hes with rfl | rfl
      · exact .nothing
      · exact .summoned (by rw [pending]; rfl)
    · rw [crossings, List.flatMap_nil, List.append_nil]
      exact hbooks.events
    · rw [crossings, List.flatMap_nil, List.append_nil]
      exact hbooks.calls
  | startPassed ongoing start entered =>
    exact ⟨_, .started _ start, (enterStart_books hlogged hlive now entered).note _, rfl⟩
  | @startErred state s' trouble _ _ _ ongoing start entered trail =>
    have hnoted := (enterStart_books (h := h) hlogged hlive now entered).note trouble
    exact ⟨_, .started _ start,
      hnoted.trans (trail.books (hnoted.handler.trans hlogged) hnoted.live), trail.taken⟩
  | started ongoing start entered goesOn =>
    have hentered := enterStart_books (h := h) hlogged hlive now entered
    obtain ⟨hbooks, htaken⟩ :=
      goesOn.books (hentered.handler.trans hlogged) hentered.live
    exact ⟨_, .started _ start, hentered.trans hbooks, htaken⟩
  | goesOn running current goesOn =>
    obtain ⟨hbooks, htaken⟩ := goesOn.books hlogged hlive
    exact ⟨[], .nothing, hbooks, htaken⟩

/-- A step that makes a move returns the wait of the last one. -/
theorem Turn.wait {s : Session σ τ} {watch : Watch} {now : Instant} {i : Itinerary}
    {o : Outcome σ τ} (hturn : Turn watch now s i o) {m : Move}
    (hlast : i.moves.getLast? = some m) : ∃ r, o.2 = .ok r ∧ r.wait = m.transition.wait := by
  rcases hturn.exists_trail with hnone | ⟨s', m', r, htrail, rfl⟩
  · rw [hnone] at hlast
    cases hlast
  · exact ⟨r.2, rfl, htrail.wait hlast⟩

/-- A step that takes a signal asks for no wait. -/
theorem wait_of_signal {s : Session σ τ} (hongoing : s.isComplete = false) {x : Signal}
    (hsignal : s.signal? = some x) (watch : Watch) (now : Instant) :
    ∃ r, (s.stepSeeing watch now).2 = .ok r ∧ r.wait = 0 := by
  unfold stepSeeing
  rw [hongoing, hsignal]
  exact ⟨_, rfl, rfl⟩

/-- A value that was asked for leads to a move, unless it is discarded. -/
theorem Turn.discarded_iff {s : Session σ τ} {watch : Watch} {now : Instant} {i : Itinerary}
    {o : Outcome σ τ} (hturn : Turn watch now s i o) {x : Consultation}
    (hx : i.consulted = some x) : x.discarded = true ↔ i.moves = [] := by
  have hgoes : ∀ {s state}, GoesOn watch now s state i o → (x.discarded = true ↔ i.moves = []) := by
    intro s state hgoes
    cases hgoes with
    | waits | gaveOut | halted | lost => cases hx
    | heldBack =>
      cases hx
      exact iff_of_true rfl rfl
    | moved _ _ trail =>
      cases hx
      cases trail <;> exact iff_of_false Bool.false_ne_true (List.cons_ne_nil _ _)
  cases hturn with
  | ended | signalled | held | unstartable | startPassed | startErred => cases hx
  | started _ _ _ goesOn | goesOn _ _ goesOn => exact hgoes goesOn

/-! ## Courses -/

/-- Whether no step of a course ends the task before it starts. -/
def StartsUnsignalled (s : Session σ τ) (as : List (Action τ)) : Prop :=
  ∀ before watch now after, as = before ++ .step watch now :: after →
    (s.course before).task.phase = .notStarted → (s.course before).signal? = none

/-- All actions but those that put a supply in are booked. -/
theorem act_books (hlogged : s.handler = h.logged) (hlive : s.supply = none)
    {a : Action (Logged τ Question)} (hsupply : ∀ supply, a ≠ .simulate supply)
    (hstarts : ∀ watch now, a = .step watch now → s.task.phase = .notStarted → s.signal? = none) :
    ∃ es, Books h s (s.act a) ((s.ways a).flatMap (·.consulted.toList)) es ∧
      es.filterMap Event.selected? =
        Consultation.taken ((s.ways a).flatMap (·.consulted.toList)) := by
  cases a with
  | step watch now =>
    obtain ⟨es, hopens, hbooks, htaken⟩ :=
      (s.stepSeeing_turn watch now).books hlogged hlive (hstarts watch now rfl)
    refine ⟨es ++ crossings now (s.itinerary watch now).moves, ?_, ?_⟩
    · show Books h s (s.stepSeeing watch now).1 _ _
      simpa [ways] using hbooks
    · simpa [ways, hopens.taken] using htaken
  | simulate supply => exact absurd rfl (hsupply supply)
  | hold | send =>
    have hcalls := (Books.refl (h := h) hlive).calls
    exact ⟨[], ⟨hlive, rfl, (List.append_nil _).symm, hcalls, by simp [ways]⟩, rfl⟩
  | stopSimulating =>
    exact ⟨[], ⟨rfl, rfl, (List.append_nil _).symm, (Books.refl hlive).calls, by simp [ways]⟩, rfl⟩
  | clearCount state value =>
    refine ⟨[], ?_, rfl⟩
    rcases s.clearCount_act state value with heq | ⟨line, heq⟩ <;> rw [heq]
    · exact .refl hlive
    · exact (Books.refl hlive).updateTask rfl

theorem course_books (hlogged : s.handler = h.logged) (hlive : s.supply = none)
    {as : List (Action (Logged τ Question))} (hsupplies : ∀ supply, Action.simulate supply ∉ as)
    (hstarts : s.StartsUnsignalled as) :
    ∃ es, Books h s (s.course as) (s.consultedAlong as) es ∧
      es.filterMap Event.selected? = Consultation.taken (s.consultedAlong as) := by
  induction as generalizing s with
  | nil => exact ⟨[], .refl hlive, rfl⟩
  | cons a rest ih =>
    obtain ⟨es, hbooks, htaken⟩ := act_books (h := h) hlogged hlive (a := a)
      (fun supply heq => hsupplies supply (heq ▸ List.mem_cons_self))
      fun watch now heq => hstarts [] watch now rest (congrArg (· :: rest) heq)
    obtain ⟨es', hbooks', htaken'⟩ := ih (hbooks.handler.trans hlogged) hbooks.live
      (fun supply hmem => hsupplies supply (List.mem_cons_of_mem _ hmem))
      fun before watch now after heq =>
        hstarts (a :: before) watch now after (congrArg (a :: ·) heq)
    refine ⟨es ++ es', ?_, ?_⟩ <;> rw [consultedAlong_cons]
    · exact hbooks.trans hbooks'
    · rw [List.filterMap_append, htaken, htaken', Consultation.taken_append]

/-! ## Recordings and calls -/

theorem StartsUnsignalled.logged {s : Session σ τ} {as : List (Action τ)}
    (h : s.StartsUnsignalled as) : s.logged.StartsUnsignalled (as.map Action.logged) := by
  intro before watch now after heq hphase
  obtain ⟨before', rest, rfl, rfl, hrest⟩ := List.map_eq_append_iff.1 heq
  obtain ⟨a, after', rfl, ha, rfl⟩ := List.map_eq_cons_iff.1 hrest
  have hstep : a = .step watch now := by
    cases a <;> cases ha
    rfl
  subst hstep
  -- the session without logs has the same task and the same signals
  obtain ⟨hsame, -⟩ := s.unlogged_course before'
  have hsignal := h before' watch now after' rfl
  rw [← hsame] at hsignal
  exact hsignal hphase

/-- In a live task, the recording tells what the handler was called for. The states whose handlers
ran are, in order, those that are recorded as executed and have a handler. The selected values of
the recording are, in order, those that were asked for and not discarded; the values asked for are
what the selectors gave, with `!` for one that failed, and for a method without a selector what
stands in for it. A step records what it opens with and its moves, of which a value that it asked
for makes one unless it is discarded; it returns the wait of its last move, and no wait where a
signal ends the task. -/
theorem recording_tells_calls {u : Setup σ τ} (hnew : u.stored = none) (hlive : u.supply = none)
    {now : Instant} {s : Session σ τ} (hbuild : (u.build now).2 = .ok s) {as : List (Action τ)}
    (hsupplies : ∀ supply, Action.simulate supply ∉ as) (hstarts : s.StartsUnsignalled as) :
    let l := s.logged.course (as.map Action.logged)
    let consulted := s.logged.consultedAlong (as.map Action.logged)
    l.unlogged s.handler = s.course as ∧
    l.memory.log.filterMap Handler.Call.entered? =
      (s.course as).task.recording.events.filterMap (Event.executed? u.handler.catalog) ∧
    (s.course as).task.recording.selected = Consultation.taken consulted ∧
    l.memory.log.filterMap Handler.Call.value? = Consultation.given u.handler.catalog consulted ∧
    (∀ x ∈ consulted, u.handler.catalog.hasSelector x.method = false →
      x.value = Names.standIn x.method) ∧
    ∀ watch now',
      ((l.task.phase = .notStarted → l.signal? = none) →
        ∃ es, l.Opens now' es ∧ ((s.course as).stepSeeing watch now').1.task.recording.events =
          (s.course as).task.recording.events ++
            (es ++ crossings now' (l.itinerary watch now').moves)) ∧
      (∀ x, (l.itinerary watch now').consulted = some x →
        (x.discarded = true ↔ (l.itinerary watch now').moves = [])) ∧
      (∀ m, (l.itinerary watch now').moves.getLast? = some m →
        ∃ r, ((s.course as).stepSeeing watch now').2 = .ok r ∧ r.wait = m.transition.wait) ∧
      ((s.course as).isComplete = false → (s.course as).signal?.isSome = true →
        ∃ r, ((s.course as).stepSeeing watch now').2 = .ok r ∧ r.wait = 0) := by
  intro l consulted
  obtain ⟨rfl, -⟩ := u.eq_newSession hnew hbuild
  have hlive : (u.newSession now).logged.supply = none := by
    show u.supply.map _ = none
    rw [hlive]
    rfl
  have hsupplies : ∀ supply, Action.simulate supply ∉ as.map Action.logged := by
    intro supply hmem
    obtain ⟨a, ha, heq⟩ := List.mem_map.1 hmem
    cases a <;> cases heq
    exact hsupplies _ ha
  obtain ⟨es, hbooks, htaken⟩ :=
    course_books (h := u.handler) rfl hlive hsupplies hstarts.logged
  obtain ⟨calls, hlog, hentered, hgiven⟩ := hbooks.calls
  obtain ⟨halike, -⟩ := (u.newSession now).alike_course_logged as
  have hsame : l.unlogged u.handler = (u.newSession now).course as := halike.unlogged_eq
  have hevents : ((u.newSession now).course as).task.recording.events = es := by
    rw [← hsame]
    exact hbooks.events
  refine ⟨hsame, ?_, ?_, hlog ▸ hgiven, hbooks.standIns, fun watch now' => ?_⟩
  · rw [hevents, ← hentered]
    exact congrArg (List.filterMap _) hlog
  · rw [← htaken, ← hevents]
    rfl
  · obtain ⟨hstep, hresult⟩ := halike.unlogged_stepSeeing watch now'
    have hturn := l.stepSeeing_turn watch now'
    rw [← hstep, ← hresult, ← hsame]
    refine ⟨fun hstarts => ?_, fun x hx => hturn.discarded_iff hx, fun m hm => hturn.wait hm, ?_⟩
    · obtain ⟨es', hopens, hbooks', -⟩ := hturn.books hbooks.handler hbooks.live hstarts
      exact ⟨es', hopens, hbooks'.events⟩
    · intro hongoing hsignal
      obtain ⟨x, hx⟩ := Option.isSome_iff_exists.1 hsignal
      exact wait_of_signal (s := l) hongoing hx watch now'

end Asking

/-- A first step that runs four handlers: the states that are recorded are those of the calls, and
the one value is that of the selector. -/
theorem recording_tells_calls_repairFails :
    (repairFails.build ⟨0, 0⟩).2 = .ok (repairFails.newSession ⟨0, 0⟩) ∧
      ((repairFails.newSession ⟨0, 0⟩).logged.course
        [.step .steady ⟨0, 0⟩]).memory.log.filterMap Handler.Call.entered? =
          ["open", "work", "repair", "failure"] ∧
      ((repairFails.newSession ⟨0, 0⟩).course
        [.step .steady ⟨0, 0⟩]).task.recording.events.filterMap
          (Event.executed? repairFails.handler.catalog) = ["open", "work", "repair", "failure"] ∧
      ((repairFails.newSession ⟨0, 0⟩).course
        [.step .steady ⟨0, 0⟩]).task.recording.selected = [("open", "go")] := by
  have hbuild : (repairFails.build ⟨0, 0⟩).2 = .ok (repairFails.newSession ⟨0, 0⟩) := rfl
  have hstarts : (repairFails.newSession ⟨0, 0⟩).StartsUnsignalled [.step .steady ⟨0, 0⟩] := by
    intro before watch now after heq _
    obtain _ | ⟨a, before⟩ := before
    · rfl
    · simp at heq
  have hsupplies : ∀ supply : ScriptedSupply,
      Action.simulate supply ∉ [Action.step .steady ⟨0, 0⟩] := by simp
  obtain ⟨-, hentered, htaken, -⟩ := recording_tells_calls rfl rfl hbuild hsupplies hstarts
  have hcalls : ((repairFails.newSession ⟨0, 0⟩).logged.course
      [.step .steady ⟨0, 0⟩]).memory.log.filterMap Handler.Call.entered? =
        ["open", "work", "repair", "failure"] := rfl
  exact ⟨hbuild, hcalls, hentered.symm.trans hcalls, htaken⟩

end Session

end TaskTable
