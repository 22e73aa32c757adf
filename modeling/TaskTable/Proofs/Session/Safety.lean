import TaskTable.Proofs.Check.Clean
import TaskTable.Proofs.Session.Limits

/-!
# A checked table is safe

What a clean report of a table promises for every task of it. While the task runs it is in a state
with a block between steps, so that no step gets stuck; and the problems that come of missing code
or of values that lead nowhere do not arise.

A step may pass through `finish` without a block, so the first is not a property that every change
keeps. It is shown for whole steps, `stepSeeing_safe`, along the way a step goes. The others are
shown for each change.
-/

namespace TaskTable

/-! ## Where routes lead -/

/-- A task starts in a state with a block. -/
theorem Table.WellFormed.hasBlock_of_startState {t : Table} (h : t.WellFormed) {state : String}
    (hstart : t.startState = .ok state) : t.hasBlock state = true := by
  unfold startState at hstart
  split at hstart
  · next b bs hblocks =>
    cases hstart
    rw [hasBlock, h.block?_of_mem (by rw [hblocks]; exact List.mem_cons_self)]
    rfl
  · cases hstart

namespace Table.Closed

variable {t : Table}

theorem isKnown_failure (h : t.Closed) : t.isKnown Names.failure = true := by
  rw [isKnown, h.failure, Bool.or_true]

theorem isKnown_terminate (h : t.Closed) : t.isKnown Names.terminate = true := by
  rw [isKnown, h.terminate, Bool.or_true]

/-- Every value leads to a known state, where it leads anywhere. -/
theorem isKnown_next (h : t.Closed) {b : Block} (hb : b ∈ t.blocks) {value : String}
    {e : Transition} (hnext : b.next? value = some e) : t.isKnown e.target = true := by
  rcases b.next?_eq_some hnext with rfl | ⟨hmem, -⟩
  · exact h.isKnown_terminate
  · exact h.targets b hb e hmem

/-- Every error route leads to a known state. -/
theorem isKnown_errorRoute (h : t.Closed) {σ τ : Type} (s : Session σ τ) {b : Block}
    (hb : b ∈ t.blocks) : t.isKnown (s.errorRoute b).target = true := by
  rcases s.errorRoute_cases b with hroute | ⟨hnext, -⟩
  · rw [hroute]
    exact h.isKnown_failure
  · exact h.isKnown_next hb hnext

/-- A known state other than `finish` has a block. -/
theorem hasBlock_of_isKnown {state : String} (hknown : t.isKnown state = true)
    (hne : state ≠ Names.finish) : t.hasBlock state = true := by
  simpa [isKnown, hne] using hknown

end Table.Closed

/-! ## Tasks that can go on -/

/-- A task that, while it runs, is in a state with a block. -/
def Trace.Settled (t : Table) (tr : Trace) : Prop :=
  tr.phase = .running → ∃ state, tr.current = some state ∧ t.hasBlock state = true

namespace Session

variable {σ τ : Type}

theorem settled_of_stop {t : Table} {tr : Trace} (phase : Phase) (h : phase ≠ .running) :
    (tr.stop phase).Settled t :=
  fun hrunning => absurd hrunning h

/-- A move to a known state ends in a state with a block, or ends the task, if what follows on an
error does. -/
theorem follow_settled {t : Table} (hclosed : t.Closed) {now : Instant}
    {recover : Session σ τ → String → Trouble → Stepped σ τ} {s : Session σ τ} {m : Move}
    (hknown : t.isKnown m.transition.target = true)
    (hrecover : m.transition.target = Names.failure ∨ ∀ (s' : Session σ τ) (trouble : Trouble),
      s'.table = s.table → (recover s' m.transition.target trouble).1.trace.Settled t) :
    (s.follow now recover m).1.trace.Settled t := by
  have htrace := s.trace_enterTarget now m
  have htable := s.table_enterTarget now m
  rw [follow_eq]
  generalize s.enterTarget now m = entered at *
  obtain ⟨s', _ | trouble⟩ := entered
  · simp only [settle]
    split
    · rw [trace_complete]
      exact settled_of_stop .finished (by decide)
    · next hne =>
      intro _
      refine ⟨m.transition.target, ?_, Table.Closed.hasBlock_of_isKnown hknown hne⟩
      exact congrArg Trace.current htrace
  · simp only [settle]
    split
    · -- an error in `failure` is passed over, and `failure` has a block
      next hfailure =>
      intro _
      refine ⟨m.transition.target, congrArg Trace.current htrace, ?_⟩
      rw [hfailure]
      exact hclosed.failure
    · next hne => exact hrecover.resolve_left hne _ _ htable

theorem goToFailure_settled {t : Table} (hclosed : t.Closed) (now : Instant) (s : Session σ τ)
    (state : String) (cause : Trouble) : (s.goToFailure now state cause).1.trace.Settled t :=
  follow_settled hclosed hclosed.isKnown_failure (.inl rfl)

theorem goToError_settled {t : Table} (hwf : t.WellFormed) (hclosed : t.Closed) (now : Instant)
    {s : Session σ τ} (htable : s.table = t) (state : String) (cause : Trouble) :
    (s.goToError now state cause).1.trace.Settled t := by
  refine follow_settled hclosed ?_ (.inr fun s' trouble _ => goToFailure_settled hclosed now _ _ _)
  show t.isKnown ((s.table.block? state).elim Transition.toFailure s.errorRoute).target = true
  rw [htable]
  cases hb : t.block? state with
  | none => exact hclosed.isKnown_failure
  | some b => exact hclosed.isKnown_errorRoute s (hwf.mem_of_block? hb).1

/-- A step that leaves its task able to go on, and that does not fail for good. -/
structure Safe (t : Table) (o : Outcome σ τ) : Prop where
  settled : o.1.trace.Settled t
  recoverable : ∀ state cause, o.2 ≠ .error (.unrecoverable state cause)

theorem safe_outcome {t : Table} {r : Stepped σ τ} (h : r.1.trace.Settled t) : Safe t r.outcome :=
  ⟨h, fun _ _ h => by cases h⟩

theorem takeError_safe {t : Table} (hwf : t.WellFormed) (hclosed : t.Closed) (now : Instant)
    {s : Session σ τ} (htable : s.table = t) {b : Block} (hb : b ∈ t.blocks) (state : String)
    (requested : Option String) (cause : Trouble) :
    Safe t (s.takeError now b state requested cause) :=
  safe_outcome <| follow_settled hclosed (hclosed.isKnown_errorRoute s hb) <| .inr
    fun _ _ h => goToError_settled hwf hclosed now (h.trans htable) _ _

theorem takeValue_safe {t : Table} (hwf : t.WellFormed) (hclosed : t.Closed) (watch : Watch)
    (now : Instant) {s : Session σ τ} (htable : s.table = t) (hsettled : s.trace.Settled t)
    {b : Block} (hb : b ∈ t.blocks) (state value : String) :
    Safe t (s.takeValue watch now b state value) := by
  have htakes := s.takeValue_takes watch now b state value
  generalize s.takeValue watch now b state value = o at *
  cases htakes with
  | error => exact takeError_safe hwf hclosed now htable hb _ _ _
  | taken t ordinary next open_ =>
    exact safe_outcome <| follow_settled hclosed (hclosed.isKnown_next hb next) <| .inr
      fun _ _ h => goToError_settled hwf hclosed now (h.trans htable) _ _
  | held trouble refused => exact ⟨hsettled, fun _ _ h => by cases h⟩
  | refused trouble refused =>
    exact takeError_safe (s := s.note trouble) hwf hclosed now htable hb _ _ _

section Stepping

variable [Supply τ]

theorem goOn_safe {t : Table} (hwf : t.WellFormed) (hclosed : t.Closed) (watch : Watch)
    (now : Instant) {s : Session σ τ} (htable : s.table = t) (hsettled : s.trace.Settled t)
    {state : String} (hstate : t.hasBlock state = true) : Safe t (s.goOn watch now state) := by
  obtain ⟨b, hb⟩ := Option.isSome_iff_exists.1 hstate
  have hmem := (hwf.mem_of_block? hb).1
  unfold goOn Table.block selectFrom
  rw [htable, hb]
  dsimp only
  split
  · exact ⟨hsettled, fun _ _ h => by cases h⟩
  · obtain ⟨htrace, hsame, -⟩ := (s.askValue_asks state b.method).keeps
    generalize s.askValue state b.method = asked at *
    obtain ⟨s', answer⟩ := asked
    rw [← htrace] at hsettled
    rw [← hsame] at htable
    match answer with
    | .error e => exact ⟨hsettled, fun _ _ h => by cases h⟩
    | .ok (.error trouble) =>
      exact takeError_safe (s := s'.note trouble) hwf hclosed now htable hmem _ _ _
    | .ok (.ok value) => exact takeValue_safe hwf hclosed watch now htable hsettled hmem _ _

theorem start_safe {t : Table} (hwf : t.WellFormed) (hclosed : t.Closed) (watch : Watch)
    (now : Instant) {s : Session σ τ} (htable : s.table = t) (hsettled : s.trace.Settled t) :
    Safe t (s.start watch now) := by
  cases hstart : s.table.startState with
  | error e =>
    unfold start
    rw [hstart]
    exact ⟨hsettled, fun _ _ h => by cases h⟩
  | ok state =>
    have hblock : t.hasBlock state = true := hwf.hasBlock_of_startState (htable ▸ hstart)
    have htrace := ((s.enterStart now state).trace_enterLive state none).trans
      (s.trace_enterStart now state)
    have hsettled' : ((s.trace.stop .running).arrive now state true).Settled t :=
      fun _ => ⟨state, rfl, hblock⟩
    have hsame := ((s.enterStart now state).table_enterLive state none).trans htable
    rw [start_eq watch now hstart]
    rw [← htrace] at hsettled'
    generalize (s.enterStart now state).enterLive state none = entered at *
    obtain ⟨s', _ | trouble⟩ := entered
    · exact goOn_safe hwf hclosed watch now hsame hsettled' hblock
    · simp only [settleStart]
      split
      · exact ⟨hsettled', fun _ _ h => by cases h⟩
      · exact safe_outcome (goToError_settled hwf hclosed now (s := s'.note trouble) hsame _ _)

omit [Supply τ] in
theorem terminate_safe (t : Table) (now : Instant) (s : Session σ τ) (reason : String) :
    Safe t (s.terminate now reason) := by
  refine ⟨?_, fun _ _ h => by cases h⟩
  unfold terminate
  dsimp only
  split
  · rw [trace_complete]
    exact settled_of_stop .terminated (by decide)
  · split
    · rw [trace_complete]
      exact settled_of_stop .terminated (by decide)
    · rw [trace_complete]
      exact settled_of_stop .terminated (by decide)

/-- A step leaves a task able to go on that is. -/
theorem stepSeeing_safe {t : Table} (hwf : t.WellFormed) (hclosed : t.Closed) (watch : Watch)
    (now : Instant) {s : Session σ τ} (htable : s.table = t) (hsettled : s.trace.Settled t) :
    Safe t (s.stepSeeing watch now) := by
  unfold stepSeeing
  cases hcomplete : s.isComplete with
  | true => exact ⟨hsettled, fun _ _ h => by cases h⟩
  | false =>
    simp only [Bool.false_eq_true, if_false]
    split
    · exact terminate_safe t now _ _
    · split
      · exact ⟨hsettled, fun _ _ h => by cases h⟩
      · split
        · exact start_safe hwf hclosed watch now htable hsettled
        · exact start_safe hwf hclosed watch now htable hsettled
        · next state hcurrent hstarted =>
          -- the task runs, so the state in which it goes on has a block
          obtain ⟨state', hcurrent', hblock⟩ := hsettled (phase_eq_running hcomplete hstarted)
          cases hcurrent.symm.trans hcurrent'
          exact goOn_safe hwf hclosed watch now htable hsettled hblock

end Stepping

end Session

/-! ## Known states -/

/-- A problem that the steps themselves report for want of a handler or a selector. -/
def Trouble.isMissingCode : Trouble → Bool
  | noStateHandler _ | noSelector _ => true
  | _ => false

/-- The problem of a value that leads nowhere. -/
def Trouble.isUnknownValue : Trouble → Bool
  | unknownValue _ _ => true
  | _ => false

/-- A task whose current state, if it has one, is `finish` or has a block. -/
def Trace.Known (t : Table) (tr : Trace) : Prop :=
  ∀ state, tr.current = some state → t.isKnown state = true

namespace Session

variable {σ τ : Type}

/-- Every move leads to a known state. -/
theorem Warrants.isKnown {s : Session σ τ} {m : Move} (hwf : s.table.WellFormed)
    (hclosed : s.table.Closed) (h : s.Warrants m) : s.table.isKnown m.transition.target = true := by
  rcases h.route with (h | h) | ⟨b, hb, hmem, -, -⟩
  · rw [h]
    exact hclosed.isKnown_failure
  · rw [h]
    exact hclosed.isKnown_terminate
  · exact hclosed.targets b (hwf.mem_of_block? hb).1 _ hmem

theorem known_turns {s : Session σ τ} {tr : Trace} (hwf : s.table.WellFormed)
    (hclosed : s.table.Closed) (h : s.trace.Known s.table) (hturn : s.Turns tr) :
    tr.Known s.table := by
  have hentered : ∀ {tr : Trace} (state : String), tr.current = some state →
      s.table.isKnown state = true → tr.Known s.table := by
    intro tr state hcurrent hknown state' hcurrent'
    cases hcurrent.symm.trans hcurrent'
    exact hknown
  cases hturn with
  | same => exact h
  | started now state ongoing fresh start =>
    refine hentered state rfl ?_
    rw [Table.isKnown, hwf.hasBlock_of_startState start, Bool.or_true]
  | moved now m allowed => exact hentered _ rfl (allowed.warrants.isKnown hwf hclosed)
  | stopped phase => exact h
  | signalled now => exact hentered Names.terminate rfl hclosed.isKnown_terminate

/-! ## Problems that do not arise -/

/-- In a table that is served, no handler and no selector is found missing. -/
theorem Arises.served {s : Session σ τ} {trouble : Trouble} (hwf : s.table.WellFormed)
    (hserved : s.table.Served s.handler.catalog) (hknown : s.trace.Known s.table)
    (h : s.Arises trouble) : trouble.isMissingCode = false := by
  cases h with
  | @noStateHandler state live current missing needed =>
    exfalso
    have hstate := hknown state current
    -- a known state is `finish`, which needs no handler, or has a block that is served
    simp only [Table.isKnown, Bool.or_eq_true, beq_iff_eq] at hstate
    rcases hstate with rfl | hblock
    · revert needed
      decide
    · obtain ⟨b, hb⟩ := Option.isSome_iff_exists.1 hblock
      obtain ⟨hmem, rfl⟩ := hwf.mem_of_block? hb
      rcases hserved.states b hmem with h | h
      · rw [needed] at h
        cases h
      · rw [missing] at h
        cases h
  | @noSelector state b live current block missing needed =>
    exfalso
    -- a method is the built-in one, which is never missing, or has its code
    rcases hserved.methods b (hwf.mem_of_block? block).1 with h | h
    · exact needed h
    · rw [missing] at h
      cases h
  | stateFailed | selectorFailed | limitReached | unknownValue | dangling => rfl

end Session

/-- A handler whose selectors fail, ask for the error route, or give values that are declared for
them. -/
def Handler.GivesDeclared {σ : Type} (h : Handler σ) : Prop :=
  ∀ method, h.catalog.hasSelector method = true → ∀ memory visit desk value,
    (h.select memory method visit desk).2.2 = .ok value →
      value = Names.error ∨ value ∈ h.catalog.valuesOf method

namespace Session

variable {σ τ : Type}

/-- In a table that handles what the selectors may give, no value is found unknown in a live task
whose selectors give nothing else. -/
theorem Arises.handled {s : Session σ τ} {trouble : Trouble} (hwf : s.table.WellFormed)
    (hhandles : s.table.Handles s.handler.catalog) (hgives : s.handler.GivesDeclared)
    (hlive : s.supply = none) (h : s.Arises trouble) : trouble.isUnknownValue = false := by
  cases h with
  | @unknownValue state value b current block ordinary unknown given =>
    exfalso
    -- the value would be one that the selector may give, and those lead somewhere
    refine hhandles b (hwf.mem_of_block? block).1 value ?_ ordinary unknown
    have hgiven := given hlive
    unfold Gives at hgiven
    split at hgiven
    · next hselector =>
      obtain ⟨memory, visit, desk, hselect⟩ := hgiven
      exact .inl ((hgives _ hselector memory visit desk value hselect).resolve_left ordinary)
    · exact .inr hgiven
  | stateFailed | noStateHandler | selectorFailed | noSelector | limitReached | dangling => rfl

/-! ## Whole courses -/

section Acting

variable [Supply τ]

/-- Between the actions of a course, a running task is in a state with a block. -/
theorem settled_course {t : Table} (hwf : t.WellFormed) (hclosed : t.Closed) {s : Session σ τ}
    (htable : s.table = t) (hsettled : s.trace.Settled t) (as : List (Action τ)) :
    (s.course as).trace.Settled t := by
  -- by actions and not by changes: within a step, the task can be in a state without a block
  induction as generalizing s with
  | nil => exact hsettled
  | cons a as ih =>
    refine ih ((s.table_act a).trans htable) ?_
    by_cases hstep : ∃ watch now, a = .step watch now
    · obtain ⟨watch, now, rfl⟩ := hstep
      exact (stepSeeing_safe hwf hclosed watch now htable hsettled).settled
    · obtain ⟨hphase, hcurrent⟩ := place_act (s := s) fun watch now h => hstep ⟨watch, now, h⟩
      intro hrunning
      obtain ⟨state, hstate, hblock⟩ := hsettled (hphase.symm.trans hrunning)
      exact ⟨state, hcurrent.trans hstate, hblock⟩

/-- What stays true along a course in a closed table that is served. -/
structure Attended (t : Table) (h : Handler σ) (s : Session σ τ) : Prop where
  table : s.table = t
  handler : s.handler = h
  known : s.trace.Known t
  attended : ∀ trouble ∈ s.troubles, trouble.isMissingCode = false

omit [Supply τ] in
theorem Attended.change {t : Table} {h : Handler σ} {s s' : Session σ τ} (hwf : t.WellFormed)
    (hclosed : t.Closed) (hserved : t.Served h.catalog) (hs : Attended t h s)
    (hchange : Change s s') : Attended t h s' := by
  obtain ⟨rfl, rfl, hknown, hattended⟩ := hs
  refine ⟨hchange.frame.1, hchange.frame.2, known_turns hwf hclosed hknown hchange.turns, ?_⟩
  rcases hchange.troubles_eq with h | ⟨trouble, harises, h⟩ <;> rw [h]
  · exact hattended
  · intro trouble' htrouble
    rcases List.mem_append.1 htrouble with htrouble | htrouble
    · exact hattended _ htrouble
    · rw [List.mem_singleton.1 htrouble]
      exact harises.served hwf hserved hknown

theorem attended_course {t : Table} {h : Handler σ} {s : Session σ τ} (hwf : t.WellFormed)
    (hclosed : t.Closed) (hserved : t.Served h.catalog) (hs : Attended t h s)
    (as : List (Action τ)) : Attended t h (s.course as) := by
  refine course_induction hs (fun s s' hchange hs => hs.change hwf hclosed hserved hchange) ?_
  intro s a _ hstep hs
  obtain ⟨hhandler, htroubles⟩ := act_keeps (s := s) hstep
  refine ⟨(s.table_act a).trans hs.table, hhandler.trans hs.handler, fun state hstate => ?_, ?_⟩
  · exact hs.known state ((place_act (s := s) hstep).2.symm.trans hstate)
  · rw [htroubles]
    exact hs.attended

/-- In a table that handles all that the selectors give, a live step finds no value unknown. -/
theorem stepSeeing_handled {s : Session σ τ} (hwf : s.table.WellFormed)
    (hhandles : s.table.Handles s.handler.catalog) (hgives : s.handler.GivesDeclared)
    (hlive : s.supply = none) (watch : Watch) (now : Instant) :
    ∃ met, (s.stepSeeing watch now).1.troubles = s.troubles ++ met ∧
      ∀ trouble ∈ met, trouble.isUnknownValue = false := by
  refine ((s.stepSeeing_changes watch now).keeps
    (P := fun s' => s'.table = s.table ∧ s'.handler = s.handler ∧ s'.supply = none ∧
      ∃ met, s'.troubles = s.troubles ++ met ∧ ∀ trouble ∈ met, trouble.isUnknownValue = false)
    ?_ ⟨rfl, rfl, hlive, [], (List.append_nil _).symm, fun _ h => by cases h⟩).2.2.2
  rintro s₁ s₂ hchange ⟨htable, hhandler, hlive, met, htroubles, hmet⟩
  have hlive' : s₂.supply = none := by
    have hsimulating := hchange.isSimulating_eq
    unfold isSimulating at hsimulating
    rw [hlive] at hsimulating
    simpa using hsimulating
  refine ⟨hchange.frame.1.trans htable, hchange.frame.2.trans hhandler, hlive', ?_⟩
  rcases hchange.troubles_eq with h | ⟨trouble, harises, h⟩
  · exact ⟨met, h.trans htroubles, hmet⟩
  · refine ⟨met ++ [trouble], by rw [h, htroubles, List.append_assoc], fun trouble' htrouble => ?_⟩
    rcases List.mem_append.1 htrouble with htrouble | htrouble
    · exact hmet _ htrouble
    · rw [List.mem_singleton.1 htrouble]
      rw [← htable] at hwf hhandles
      rw [← hhandler] at hhandles hgives
      exact harises.handled hwf hhandles hgives hlive

/-- A table that is checked against the handler's catalog is safe for every course of a new task.
Without missing blocks, a running task is between actions in a state with a block, and no step fails
for good. If no handler and no selector is missing either, none is ever found missing. If besides
no value is reported as unused, and the selectors give what is declared, no live step finds a value
that leads nowhere. -/
theorem checked_table_safe {source : String} {t : Table} (hcompile : Table.compile source = .ok t)
    {u : Setup σ τ} (htable : u.table = t) (hnew : u.stored = none) {now : Instant}
    {s : Session σ τ} (hbuild : (u.build now).2 = .ok s)
    (hblocks : s.check.ofKind .missingBlock = []) (as : List (Action τ)) :
    ((s.course as).task.phase = .running →
      ∃ state b, (s.course as).task.current = some state ∧ t.block? state = some b) ∧
    (∀ watch now' state cause,
      ((s.course as).stepSeeing watch now').2 ≠ .error (.unrecoverable state cause)) ∧
    (s.check.ofKind .missingStateMethod = [] → s.check.ofKind .missingTransitionMethod = [] →
      (∀ trouble ∈ (s.course as).troubles, trouble.isMissingCode = false) ∧
      (s.check.ofKind .unusedValue = [] → u.handler.GivesDeclared → (s.course as).supply = none →
        ∀ watch now', ∃ met,
          ((s.course as).stepSeeing watch now').1.troubles = (s.course as).troubles ++ met ∧
            ∀ trouble ∈ met, trouble.isUnknownValue = false)) := by
  obtain ⟨rfl, -⟩ := u.eq_newSession hnew hbuild
  subst htable
  have hwf : u.table.WellFormed := Table.wellFormed_of_compile hcompile
  have hclosed : u.table.Closed := Check.closed_of_clean hblocks
  have hsettled : ((u.newSession now).course as).trace.Settled u.table :=
    settled_course hwf hclosed rfl (fun h => by cases h) as
  have hcourse : ((u.newSession now).course as).table = u.table := table_course _ as
  refine ⟨fun hrunning => ?_, fun watch now' => ?_, fun hstates hmethods => ?_⟩
  · obtain ⟨state, hstate, hblock⟩ := hsettled hrunning
    obtain ⟨b, hb⟩ := Option.isSome_iff_exists.1 hblock
    exact ⟨state, b, hstate, hb⟩
  · exact (stepSeeing_safe hwf hclosed watch now' hcourse hsettled).recoverable
  · have hserved : u.table.Served u.handler.catalog := Check.served_of_clean hstates hmethods
    have hattended : Attended u.table u.handler ((u.newSession now).course as) :=
      attended_course hwf hclosed hserved
        ⟨rfl, rfl, (fun _ h => by cases h), fun _ h => absurd h List.not_mem_nil⟩ as
    refine ⟨hattended.attended, fun hvalues hgives hlive watch now' => ?_⟩
    have hhandles : u.table.Handles u.handler.catalog := Check.handles_of_clean hserved hvalues
    refine stepSeeing_handled ?_ ?_ ?_ hlive watch now'
    · rw [hcourse]
      exact hwf
    · rw [hcourse, hattended.handler]
      exact hhandles
    · rw [hattended.handler]
      exact hgives

end Acting

/-! ## A guarded poll -/

/-- The table of `pollSource` with the blocks that errors and terminations lead to. -/
def guardedSource : String :=
  pollSource ++ "failure \x7b\n * finish\n\x7d\nterminate \x7b\n * finish\n\x7d\n"

def guardedTable : Table where
  blocks := pollTable.blocks ++
    [{ state := "failure", transitions := [{ value := "*", target := "finish", line := 6 }],
        line := 5 },
      { state := "terminate", transitions := [{ value := "*", target := "finish", line := 9 }],
        line := 8 }]
  index := .ofList [("poll", 0), ("failure", 1), ("terminate", 2)]
  sourceHash := Digest.sha256 guardedSource

theorem compile_guardedSource : Table.compile guardedSource = .ok guardedTable :=
  Table.compile_of_foldlM (u := { table := { guardedTable with sourceHash := "" } }) rfl rfl

/-- A new task of `guardedTable` whose selector always asks to poll again. -/
def guardedPoll : Setup Unit ScriptedSupply where
  table := guardedTable
  handler :=
    { Handler.none with
      catalog :=
        { states := ["poll"]
          selectors := ["check"]
          declared := [⟨"check", "again", "poll again"⟩, ⟨"check", "done", "stop"⟩] }
      select := fun m _ _ d => (m, d, .ok "again") }
  memory := ()
  taskId := "poll"

theorem givesDeclared_guardedPoll : guardedPoll.handler.GivesDeclared := by
  intro method hselector memory visit desk value hvalue
  have hmethod : method = "check" := by simpa [guardedPoll, Catalog.hasSelector] using hselector
  cases hvalue
  subst hmethod
  exact .inr (by decide)

/-- A task that always asks to poll again is sent to `failure`, which has a block. -/
theorem checked_table_safe_guardedPoll :
    (guardedPoll.build ⟨0, 0⟩).2 = .ok (guardedPoll.newSession ⟨0, 0⟩) ∧
      ((guardedPoll.newSession ⟨0, 0⟩).course
        (List.replicate 3 (.step .steady ⟨0, 0⟩))).task.phase = .running ∧
      (∃ state b, ((guardedPoll.newSession ⟨0, 0⟩).course
          (List.replicate 3 (.step .steady ⟨0, 0⟩))).task.current = some state ∧
        guardedTable.block? state = some b) ∧
      ∀ watch now, ∃ met,
        (((guardedPoll.newSession ⟨0, 0⟩).course
            (List.replicate 3 (.step .steady ⟨0, 0⟩))).stepSeeing watch now).1.troubles =
          ((guardedPoll.newSession ⟨0, 0⟩).course
            (List.replicate 3 (.step .steady ⟨0, 0⟩))).troubles ++ met ∧
          ∀ trouble ∈ met, trouble.isUnknownValue = false := by
  have hbuild : (guardedPoll.build ⟨0, 0⟩).2 = .ok (guardedPoll.newSession ⟨0, 0⟩) := rfl
  have hclean : ∀ k, k ≠ .spinTransition →
      (guardedPoll.newSession ⟨0, 0⟩).check.ofKind k = [] := by
    intro k hk
    cases k <;> first | rfl | exact absurd rfl hk
  obtain ⟨hblock, -, hserved⟩ := checked_table_safe compile_guardedSource rfl rfl hbuild
    (hclean _ (by decide)) (List.replicate 3 (.step .steady ⟨0, 0⟩))
  obtain ⟨-, hhandled⟩ := hserved (hclean _ (by decide)) (hclean _ (by decide))
  have hrunning : ((guardedPoll.newSession ⟨0, 0⟩).course
      (List.replicate 3 (.step .steady ⟨0, 0⟩))).task.phase = .running := rfl
  exact ⟨hbuild, hrunning, hblock hrunning,
    hhandled (hclean _ (by decide)) givesDeclared_guardedPoll rfl⟩

end Session
end TaskTable
