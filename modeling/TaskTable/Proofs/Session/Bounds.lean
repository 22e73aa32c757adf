import TaskTable.Proofs.Session.Deeds
import TaskTable.Proofs.Session.Limits

/-!
# The bounds of a step

Taken as it goes, a step is three loops inside one another: a task in no state is started and gone
on with, a value that cannot be taken is replaced and tried again, and an error leads to a move that
can end in an error. `stepWithin` is a step in that form, which gives up when it has turned,
selected or moved too often; two turns, two rounds and three moves are always enough
(`stepWithin_eq`). With what the logs say about its calls, that bounds all that a step does.
-/

namespace TaskTable

/-- How far the errors of a step have been followed up. -/
inductive Depth
  | normal
  | fallback
  | last
  deriving DecidableEq, Repr

/-- The depth after one more error. -/
def Depth.next : Depth → Depth
  | normal => fallback
  | fallback | last => last

/-- Where the selection of a value stands between two rounds. -/
structure Selection where
  /-- What the selector gave. -/
  selected : Option String := none
  /-- What the next round takes without asking. -/
  forced : Option String := none
  cause : Option Trouble := none

namespace Session

variable {σ τ : Type}

/-! ## Moves -/

/-- The route of an error in a state: its own error route at first, straight to `failure` later. -/
def routeAt (s : Session σ τ) (state : String) : Depth → Transition
  | .normal => (s.table.block? state).elim .toFailure s.errorRoute
  | .fallback | .last => .toFailure

/-- Makes a move, and as long as the handler of the target fails, another one from there. -/
def moveWithin (now : Instant) : (moves : Nat) → Depth → Session σ τ → Move → Option (Stepped σ τ)
  | 0, _, _, _ => none
  | moves + 1, depth, s, m =>
    match s.enterTarget now m with
    | (s, some trouble) =>
      let s := s.note trouble
      if m.transition.target = Names.failure then some (s, .running m.transition.wait)
      else
        s.moveWithin now moves depth.next <|
          s.errorMove m.transition.target (s.routeAt m.transition.target depth) trouble
    | (s, none) =>
      if m.transition.target = Names.finish then
        let s := s.complete now .finished ⟨.succeeded, none⟩
        some (s, s.completed m.transition.wait)
      else some (s, .running m.transition.wait)

/-- One move is enough if what follows on an error is done in the moves that are left. -/
theorem moveWithin_succ {now : Instant} {moves : Nat} {depth : Depth}
    {recover : Session σ τ → String → Trouble → Stepped σ τ} {m : Move}
    (hrecover : m.transition.target ≠ Names.failure → ∀ (s : Session σ τ) (trouble : Trouble),
      s.moveWithin now moves depth.next
        (s.errorMove m.transition.target (s.routeAt m.transition.target depth) trouble) =
          some (recover s m.transition.target trouble)) (s : Session σ τ) :
    s.moveWithin now (moves + 1) depth m = some (s.follow now recover m) := by
  rw [follow_eq, moveWithin]
  generalize s.enterTarget now m = entered
  obtain ⟨s', _ | trouble⟩ := entered
  · simp only [settle]
    split <;> rfl
  · simp only [settle]
    split
    · rfl
    · next hne => exact hrecover hne _ trouble

theorem moveWithin_toFailure {now : Instant} {moves : Nat} {depth : Depth} {m : Move}
    (htarget : m.transition.target = Names.failure)
    (recover : Session σ τ → String → Trouble → Stepped σ τ) (s : Session σ τ) :
    s.moveWithin now (moves + 1) depth m = some (s.follow now recover m) :=
  moveWithin_succ (fun hne => absurd htarget hne) s

theorem moveWithin_fallback (now : Instant) (moves : Nat) (s : Session σ τ) (m : Move) :
    s.moveWithin now (moves + 2) .fallback m = some (s.follow now (goToFailure now) m) :=
  moveWithin_succ (fun _ _ _ => moveWithin_toFailure rfl _ _) s

theorem moveWithin_normal (now : Instant) (moves : Nat) (s : Session σ τ) (m : Move) :
    s.moveWithin now (moves + 3) .normal m = some (s.follow now (goToError now) m) :=
  moveWithin_succ (fun _ s _ => moveWithin_fallback now moves s _) s

/-! ## Rounds -/

section Asking

variable [Supply τ]

/-- The value that a round looks at. A selector that fails asks for the error route. -/
def roundValue (s : Session σ τ) (state method : String) (x : Selection) :
    Session σ τ × Except SupplyError (String × Selection) :=
  match x.forced with
  | some value => (s, .ok (value, { x with forced := none }))
  | none =>
    match s.askValue state method with
    | (s, .error e) => (s, .error e)
    | (s, .ok (.error trouble)) =>
      (s.note trouble, .ok (Names.error, { x with cause := some trouble }))
    | (s, .ok (.ok value)) => (s, .ok (value, { x with selected := some value }))

/-- The move that a round makes once its value leads somewhere. -/
def roundMove (b : Block) (state value : String) (t : Transition) (x : Selection) : Move where
  origin := state
  method := b.method
  value := value
  requested := x.selected.filter (· ≠ value)
  kind := .selector
  transition := t
  cause := if value = Names.error then x.cause <|> some (.errorValue b.method state) else x.cause

/-- Looks at values until one leads somewhere. -/
def selectWithin (watch : Watch) (now : Instant) (b : Block) (state : String) (moves : Nat) :
    (rounds : Nat) → Look → Selection → Session σ τ → Option (Outcome σ τ)
  | 0, _, _, _ => none
  | rounds + 1, look, x, s =>
    if watch look s.paused then some s.held
    else
      match s.roundValue state b.method x with
      | (s, .error e) => some (s, .error (.supply e))
      | (s, .ok (value, x)) =>
        match s.resolve b state value with
        | .ok t =>
          (s.moveWithin now moves .normal (roundMove b state value t x)).map Stepped.outcome
        | .error trouble =>
          selectWithin watch now b state moves rounds .secondRound
            { x with forced := some Names.error, cause := some trouble } (s.note trouble)

omit [Supply τ] in
theorem resolve_error (s : Session σ τ) (b : Block) (state : String) :
    s.resolve b state Names.error = .ok (s.errorRoute b) := by
  rw [resolve, if_pos rfl]

omit [Supply τ] in
/-- A round that looks at `!` takes the error route. -/
theorem moveWithin_error {now : Instant} {b : Block} {state : String} {x : Selection}
    {requested : Option String} {cause : Trouble} (moves : Nat) (s : Session σ τ)
    (hrequested : x.selected.filter (· ≠ Names.error) = requested)
    (hcause : (x.cause <|> some (.errorValue b.method state)) = some cause) :
    (s.moveWithin now (moves + 3) .normal
        (roundMove b state Names.error (s.errorRoute b) x)).map Stepped.outcome =
      some (s.takeError now b state requested cause) := by
  have hmove : roundMove b state Names.error (s.errorRoute b) x =
      { origin := state
        method := b.method
        value := Names.error
        requested
        kind := .selector
        transition := s.errorRoute b
        cause := some cause } := by
    simp only [roundMove, hrequested, if_pos, hcause]
  rw [hmove, moveWithin_normal]
  rfl

/-- Two rounds are enough: the value of the second is `!`, which always leads somewhere. -/
theorem selectWithin_eq (watch : Watch) (now : Instant) (b : Block) (state : String)
    (rounds moves : Nat) (s : Session σ τ) :
    selectWithin watch now b state (moves + 3) (rounds + 2) .firstRound {} s =
      some (s.selectFrom watch now b state) := by
  unfold selectFrom
  rw [selectWithin]
  split
  · rfl
  · simp only [roundValue]
    generalize s.askValue state b.method = asked
    rcases asked with ⟨s, e | trouble | value⟩
    · rfl
    · -- a selector that fails is settled in the first round
      simp only [resolve_error]
      exact moveWithin_error moves _ rfl rfl
    · simp only [takeValue]
      by_cases hvalue : value = Names.error
      · -- and so is one that gives `!` itself
        subst hvalue
        simp only [resolve_error, if_pos]
        exact moveWithin_error moves _ (by simp) rfl
      · simp only [if_neg hvalue]
        cases s.resolve b state value with
        | ok t =>
          have hrequested : (some value).filter (· ≠ value) = none := by simp
          simp only [moveWithin_normal, roundMove, if_neg hvalue, hrequested, Option.map_some]
        | error trouble =>
          -- the value leads nowhere, and the second round takes `!` in its place
          simp only [selectWithin, roundValue, resolve_error]
          split
          · rfl
          · exact moveWithin_error moves _ (by simp [hvalue]) rfl

/-! ## Turns -/

/-- Goes on in a state. A state that is neither built in nor in the table leads to `failure`. -/
def goOnWithin (watch : Watch) (now : Instant) (rounds moves : Nat) (s : Session σ τ)
    (state : String) : Option (Outcome σ τ) :=
  match s.table.block state with
  | .ok b => selectWithin watch now b state moves rounds .firstRound {} s
  | .error e =>
    if Names.isBuiltin state then some (s.goOnWithoutBlock now state e)
    else
      let s := s.note (.dangling e)
      (s.moveWithin now moves .fallback (s.errorMove state .toFailure (.dangling e))).map
        Stepped.outcome

/-- Starts the task, and advances it from its first state unless that state's handler fails. -/
def startWithin (now : Instant) (moves : Nat) (advance : Session σ τ → Option (Outcome σ τ))
    (s : Session σ τ) : Option (Outcome σ τ) :=
  match s.table.startState with
  | .error e => some (s, .error (.table e))
  | .ok state =>
    match (s.enterStart now state).enterLive state none with
    | (s, none) => advance s
    | (s, some trouble) =>
      let s := s.note trouble
      if state = Names.failure then some (s, .ok (.running 0))
      else
        (s.moveWithin now moves .fallback
          (s.errorMove state (s.routeAt state .normal) trouble)).map Stepped.outcome

/-- Advances the task from its state, or starts it where it is in none. -/
def advanceWithin (watch : Watch) (now : Instant) (rounds moves : Nat) :
    (turns : Nat) → Session σ τ → Option (Outcome σ τ)
  | 0, _ => none
  | turns + 1, s =>
    match s.task.current with
    | some state => s.goOnWithin watch now rounds moves state
    | none => s.startWithin now moves (advanceWithin watch now rounds moves turns)

/-- One step that turns between starting and advancing, looks at values and makes moves at most so
often. -/
def stepWithin (turns rounds moves : Nat) (watch : Watch) (now : Instant) (s : Session σ τ) :
    Option (Outcome σ τ) :=
  if s.isComplete then some (s, .ok (s.completed 0))
  else
    match s.signal? with
    | some signal =>
      some ({ s with queue := s.queue.consume s.task.id signal.id }.terminate now signal.text)
    | none =>
      if watch .atStart s.paused then some s.held
      else if s.task.phase = .notStarted then
        s.startWithin now moves (advanceWithin watch now rounds moves turns)
      else advanceWithin watch now rounds moves turns s

theorem goOnWithin_eq (watch : Watch) (now : Instant) (rounds moves : Nat) (s : Session σ τ)
    (state : String) :
    s.goOnWithin watch now (rounds + 2) (moves + 3) state = some (s.goOn watch now state) := by
  unfold goOnWithin goOn
  cases s.table.block state with
  | ok b => exact selectWithin_eq watch now b state rounds moves s
  | error e =>
    dsimp only
    by_cases hbuiltin : Names.isBuiltin state = true
    · rw [if_pos hbuiltin]
    · -- a dangling state is left for `failure`, and one move is enough for that
      have hne : state ≠ Names.finish ∧ state ≠ Names.terminate ∧ state ≠ Names.failure := by
        refine ⟨?_, ?_, ?_⟩ <;> rintro rfl <;> exact hbuiltin (by decide)
      rw [if_neg hbuiltin, goOnWithoutBlock, if_neg hne.1, if_neg hne.2.1, if_neg hne.2.2,
        moveWithin_toFailure rfl]
      rfl

/-- A task that has been started is in a state, so it takes one turn more. -/
theorem startWithin_eq (watch : Watch) (now : Instant) (turns rounds moves : Nat)
    (s : Session σ τ) :
    s.startWithin now (moves + 3) (advanceWithin watch now (rounds + 2) (moves + 3) (turns + 1)) =
      some (s.start watch now) := by
  unfold startWithin
  cases hstart : s.table.startState with
  | error e =>
    unfold start
    rw [hstart]
  | ok state =>
    -- the second turn finds the task in the state that it has just entered
    have hcurrent : ((s.enterStart now state).enterLive state none).1.task.current = some state :=
      (current_of_trace ((s.enterStart now state).trace_enterLive state none)).trans
        (congrArg Trace.current (s.trace_enterStart now state))
    rw [start_eq watch now hstart]
    dsimp only
    generalize (s.enterStart now state).enterLive state none = entered at hcurrent ⊢
    obtain ⟨s', _ | trouble⟩ := entered
    · have hcurrent : s'.task.current = some state := hcurrent
      simp only [settleStart, advanceWithin, hcurrent, goOnWithin_eq]
    · simp only [settleStart]
      split
      · rfl
      · rw [moveWithin_fallback]
        rfl

/-- Two turns, two rounds and three moves are enough for every step, from every session. -/
theorem stepWithin_eq (turns rounds moves : Nat) (watch : Watch) (now : Instant)
    (s : Session σ τ) :
    s.stepWithin (turns + 2) (rounds + 2) (moves + 3) watch now =
      some (s.stepSeeing watch now) := by
  unfold stepWithin stepSeeing
  split
  · rfl
  · cases s.signal? with
    | some signal => rfl
    | none =>
      dsimp only
      split
      · rfl
      · split
        · next hphase =>
          rw [hphase]
          exact startWithin_eq watch now (turns + 1) rounds moves s
        · next hphase =>
          rw [advanceWithin]
          cases hcurrent : s.task.current with
          | none =>
            -- a stored task may run and be in no state; it is started again
            dsimp only
            rw [startWithin_eq]
            split <;> simp_all
          | some state =>
            dsimp only
            rw [goOnWithin_eq]
            split <;> simp_all

/-! ## All bounds together -/

omit [Supply τ] in
/-- Each crossing is one transition and one state. -/
theorem countP_crossings (cs : List Crossing) :
    (cs.flatMap Crossing.events).countP (·.entered?.isNone) = cs.length ∧
      (cs.flatMap Crossing.events).countP (·.entered?.isSome) = cs.length := by
  induction cs with
  | nil => exact ⟨rfl, rfl⟩
  | cons c cs ih =>
    have hone : c.events.countP (·.entered?.isNone) = 1 ∧
        c.events.countP (·.entered?.isSome) = 1 := ⟨rfl, rfl⟩
    simp only [List.flatMap_cons, List.countP_append, List.length_cons, ih.1, ih.2, hone.1, hone.2]
    omega

/-- Every step ends, from every session and whatever handlers do. It turns to another beginning at
most twice, looks at two values at most and makes three moves at most. With logs it goes the same
way, and these show at most four calls of state handlers, one consultation of a selector or supply
and no update hook. At most three transitions and four states are recorded, and a third transition
leads to `failure`. -/
theorem step_bounded (watch : Watch) (now : Instant) (s : Session σ τ) :
    (∀ turns rounds moves, s.stepWithin (turns + 2) (rounds + 2) (moves + 3) watch now =
      some (s.stepSeeing watch now)) ∧
    (s.logged.stepSeeing watch now).1.unlogged s.handler = (s.stepSeeing watch now).1 ∧
    (s.logged.stepSeeing watch now).2 = (s.stepSeeing watch now).2 ∧
    ∃ d opening cs, Deeds.Bounded d opening cs ∧
      (s.logged.stepSeeing watch now).1.memory.log = d.calls ∧
      (s.logged.stepSeeing watch now).1.questions = d.questions ∧
      (s.stepSeeing watch now).1.task.recording.events = s.task.recording.events ++ d.events ∧
      d.events.countP (·.entered?.isNone) = cs.length ∧
      d.events.countP (·.entered?.isSome) ≤ 4 := by
  obtain ⟨hsame, hresult⟩ := s.unlogged_stepSeeing watch now
  obtain ⟨d, opening, cs, hbounded, hdoes⟩ :=
    stepSeeing_does (s := s.logged) (h := s.handler) rfl watch now
  -- the signal that the step may take does not count among its deeds
  rw [received_eq] at hdoes
  have hnew : s.logged.questions = [] := by
    unfold questions logged
    cases s.supply <;> rfl
  obtain ⟨htransitions, hstates⟩ := countP_crossings cs
  have hfew := hbounded.crossings.1
  refine ⟨fun turns rounds moves => stepWithin_eq turns rounds moves watch now s, hsame, hresult, d,
    opening, cs, hbounded, ?_, ?_, ?_, ?_, ?_⟩
  · exact hdoes.calls
  · exact hdoes.questions.trans (congrArg (· ++ d.questions) hnew)
  · rw [← hsame]
    exact hdoes.events
  · rw [hbounded.events, List.countP_append, htransitions]
    rcases hbounded.opens with h | ⟨state, now, h⟩ <;> rw [h] <;> simp [Event.entered?]
  · rw [hbounded.events, List.countP_append, hstates]
    rcases hbounded.opens with h | ⟨state, now, h⟩ <;> rw [h] <;> simp [Event.entered?] <;> omega

end Asking

/-! ## A task that fails wherever it goes -/

/-- A table whose task is repaired when its work fails. -/
def repairSource : String :=
  "open:check \x7b\n go work\n\x7d\nwork \x7b\n * finish\n ! repair\n\x7d\n" ++
    "repair \x7b\n * finish\n\x7d\n"

/-- The table of `repairSource`. -/
def repairTable : Table where
  blocks :=
    [{ state := "open"
       method := "check"
       transitions := [{ value := "go", target := "work", line := 2 }]
       line := 1 },
      { state := "work"
        transitions :=
          [{ value := "*", target := "finish", line := 5 },
            { value := "!", target := "repair", line := 6 }]
        line := 4 },
      { state := "repair"
        transitions := [{ value := "*", target := "finish", line := 9 }]
        line := 8 }]
  index := .ofList [("open", 0), ("work", 1), ("repair", 2)]
  sourceHash := Digest.sha256 repairSource

theorem compile_repairSource : Table.compile repairSource = .ok repairTable :=
  Table.compile_of_foldlM (u := { table := { repairTable with sourceHash := "" } }) rfl rfl

/-- A new task of `repairTable` whose state handlers all fail but the first. -/
def repairFails : Setup Unit ScriptedSupply where
  table := repairTable
  handler :=
    { Handler.none with
      catalog := { states := ["open", "work", "repair", "failure"], selectors := ["check"] }
      enter := fun m v d => (m, d, if v.state = "open" then .ok () else .error "broken")
      select := fun m _ _ d => (m, d, .ok "go") }
  memory := ()
  taskId := "repair"

/-- The bounds are reached: a first step that calls four state handlers and a selector, and makes
three moves, the last of them to `failure`. -/
theorem step_bounded_repairFails :
    Table.compile repairSource = .ok repairTable ∧
    ∃ d opening cs, Deeds.Bounded d opening cs ∧ d.entries = 4 ∧ d.consultations = 1 ∧
      cs.length = 3 ∧
      ((repairFails.newSession ⟨0, 0⟩).stepSeeing .steady ⟨0, 0⟩).1.task.current =
        some Names.failure := by
  obtain ⟨-, -, -, d, opening, cs, hbounded, hcalls, hquestions, hevents, htransitions, -⟩ :=
    step_bounded .steady ⟨0, 0⟩ (repairFails.newSession ⟨0, 0⟩)
  refine ⟨compile_repairSource, d, opening, cs, hbounded, ?_, ?_, ?_, rfl⟩
  · rw [Deeds.entries, ← hcalls]
    rfl
  · rw [Deeds.consultations, ← hcalls, ← hquestions]
    rfl
  · have hnew : ((repairFails.newSession ⟨0, 0⟩).stepSeeing .steady
        ⟨0, 0⟩).1.task.recording.events = d.events := hevents
    rw [← htransitions, ← hnew]
    rfl

end Session
end TaskTable
