import TaskTable.Proofs.Session.Course
import TaskTable.Proofs.Session.Stride
import TaskTable.Proofs.Supply.Feeding

/-!
# Quiet steps

A step that no signal, no pause and no error of a state handler disturbs is `Trace.stepOn`, whoever
gives the value: `stepSeeing_of_ok` reads the value off a step that went well, be it live or
simulated, and `stepSeeing_of_feeds` says that a supply that gives this value makes the same step.
-/

namespace TaskTable

/-- An error of a state handler, as entering a state reports it: its own, or that there is none. -/
def Trouble.isStateError : Trouble → Bool
  | stateFailed _ _ | noStateHandler _ => true
  | _ => false

namespace Session

variable {σ τ : Type}

/-- The flag is down whenever a step looks at it. -/
def Watch.clear : Watch := fun _ _ => false

/-! ## Calm outcomes -/

/-- No state handler erred on the way to an outcome: the task is simulated, or no such error is
among the problems met. -/
def Calm (s : Session σ τ) (troubles : List Trouble) : Prop :=
  s.isSimulating = true ∨ ∀ trouble ∈ troubles, trouble.isStateError = false

/-- An outcome with a trace, a supply, and a result other than a fault. -/
structure Makes (o : Outcome σ τ) (supply : Option τ) (p : Stride) : Prop where
  trace : o.1.trace = p.trace
  supply : o.1.supply = supply
  result : ∃ r, o.2 = .ok r ∧ r.wait = p.wait ∧ r.complete = p.complete

theorem isStateError_of_enterLive {s : Session σ τ} {state : String} {cause : Option String}
    {trouble : Trouble} (h : (s.enterLive state cause).2 = some trouble) :
    trouble.isStateError = true := by
  have henters := s.enterLive_enters state cause
  generalize s.enterLive state cause = entered at *
  cases henters with
  | passed | succeeded => cases h
  | failed | missing =>
    cases h
    rfl

/-- A move changes neither the supply nor the problems met. -/
theorem enterTarget_keeps (s : Session σ τ) (now : Instant) (m : Move) :
    (s.enterTarget now m).1.supply = s.supply ∧ (s.enterTarget now m).1.troubles = s.troubles := by
  have hmove : (s.move now m).supply = s.supply ∧ (s.move now m).troubles = s.troubles := by
    rw [move_eq_updateTask]
    exact ⟨rfl, rfl⟩
  unfold enterTarget
  split
  · rw [supply_enterLive, troubles_enterLive]
    exact hmove
  · exact hmove

/-- Following a move forgets no problem, if what follows on an error forgets none. -/
theorem troubles_follow {now : Instant} {recover : Session σ τ → String → Trouble → Stepped σ τ}
    (hrecover : ∀ s state trouble, s.troubles ⊆ (recover s state trouble).1.troubles)
    (s : Session σ τ) (m : Move) :
    (s.enterTarget now m).2.toList ++ s.troubles ⊆ (s.follow now recover m).1.troubles := by
  have htroubles := (s.enterTarget_keeps now m).2
  rw [follow_eq]
  generalize s.enterTarget now m = entered at *
  obtain ⟨s', _ | trouble⟩ := entered
  · simp only [settle]
    split <;> exact (htroubles ▸ fun _ h => h)
  · have hnote : (some trouble).toList ++ s.troubles ⊆ (s'.note trouble).troubles := by
      intro t ht
      have ht : t = trouble ∨ t ∈ s.troubles := by simpa using ht
      simp only [note, List.mem_append, List.mem_singleton]
      rw [show s'.troubles = s.troubles from htroubles]
      exact ht.symm
    simp only [settle]
    split
    · exact hnote
    · exact fun t ht => hrecover _ _ _ (hnote ht)

theorem troubles_goToFailure (now : Instant) (s : Session σ τ) (state : String) (cause : Trouble) :
    s.troubles ⊆ (s.goToFailure now state cause).1.troubles :=
  fun _ ht => troubles_follow (fun _ _ _ _ h => h) s _ (List.mem_append_right _ ht)

theorem troubles_goToError (now : Instant) (s : Session σ τ) (state : String) (cause : Trouble) :
    s.troubles ⊆ (s.goToError now state cause).1.troubles :=
  fun _ ht => troubles_follow (fun s => troubles_goToFailure now s) s _
    (List.mem_append_right _ ht)

/-- Where no state handler errs, a move comes to its end at once. -/
theorem follow_makes {now : Instant} {recover : Session σ τ → String → Trouble → Stepped σ τ}
    {s : Session σ τ} {m : Move}
    (hrecover : ∀ s state trouble, s.troubles ⊆ (recover s state trouble).1.troubles)
    (hcalm : s.Calm (s.follow now recover m).1.troubles) :
    Makes (s.follow now recover m).outcome s.supply (s.trace.settle now m) := by
  have hnone : (s.enterTarget now m).2 = none := by
    refine Option.eq_none_iff_forall_ne_some.2 fun trouble htrouble => ?_
    -- a problem would be an error of a state handler
    have herror : trouble.isStateError = true := by
      unfold enterTarget at htrouble
      split at htrouble
      · exact isStateError_of_enterLive htrouble
      · cases htrouble
    rcases hcalm with hsimulating | hcalm
    · have hmove : (s.move now m).isSimulating = true := by
        rw [move_eq_updateTask]
        exact hsimulating
      unfold enterTarget at htrouble
      rw [enterLive_of_isSimulating hmove] at htrouble
      split at htrouble <;> cases htrouble
    · -- it would be among the problems met
      have hmem := hcalm trouble (troubles_follow hrecover s m (by simp [htrouble]))
      rw [herror] at hmem
      cases hmem
  have htrace := s.trace_enterTarget now m
  have hsupply := (s.enterTarget_keeps now m).1
  rw [follow_eq]
  generalize s.enterTarget now m = entered at *
  obtain ⟨s', trouble⟩ := entered
  cases hnone
  simp only [settle, Trace.settle]
  split
  · exact ⟨congrArg (fun tr : Trace => tr.stop .finished) htrace, hsupply, _, rfl, rfl, rfl⟩
  · exact ⟨htrace, hsupply, _, rfl, rfl, rfl⟩

/-! ## Taking a value -/

theorem takeError_makes {now : Instant} {s : Session σ τ} {b : Block} {state : String}
    {requested : Option String} {cause : Trouble}
    (hcalm : s.Calm (s.takeError now b state requested cause).1.troubles) :
    Makes (s.takeError now b state requested cause) s.supply
      (s.trace.settle now (s.trace.errorChoice b state requested)) :=
  follow_makes (fun s => troubles_goToError now s) hcalm

/-- A value that is refused makes the trace take the error route. -/
theorem Refuses.choice_eq {s : Session σ τ} {b : Block} {state value : String} {trouble : Trouble}
    (h : s.Refuses b state value trouble) :
    s.trace.choice b state value = s.trace.errorChoice b state (some value) := by
  unfold Trace.choice
  cases h with
  | unknown ordinary next => rw [if_neg ordinary, next]
  | exhausted t ordinary next exhausted =>
    rw [if_neg ordinary, next]
    exact if_pos exhausted

/-- Where nothing holds it back and no state handler errs, a value leads on as it does in the
trace. -/
theorem takeValue_makes {watch : Watch} {now : Instant} {s : Session σ τ} {b : Block}
    {state value : String} (hwatch : ∀ look, watch look s.paused = false)
    (hcalm : s.Calm (s.takeValue watch now b state value).1.troubles) :
    Makes (s.takeValue watch now b state value) s.supply
      (s.trace.settle now (s.trace.choice b state value)) := by
  have htakes := s.takeValue_takes watch now b state value
  generalize s.takeValue watch now b state value = o at *
  cases htakes with
  | error asked =>
    unfold Trace.choice
    rw [if_pos asked]
    exact takeError_makes hcalm
  | taken t ordinary next open_ =>
    unfold Trace.choice
    simp only [if_neg ordinary, next, isExhausted_trace, open_, Bool.false_eq_true, if_false]
    exact follow_makes (fun s => troubles_goToError now s) hcalm
  | held trouble refused paused =>
    rw [hwatch .secondRound] at paused
    cases paused
  | refused trouble refused =>
    rw [refused.choice_eq]
    exact takeError_makes (s := s.note trouble) hcalm

/-- A state without a block is left as in the trace, unless it is `failure`, which is a fault. -/
theorem goOnWithoutBlock_makes {now : Instant} {s : Session σ τ} {state : String} {e : TableError}
    (hmissing : s.table.block? state = none)
    (hcalm : s.Calm (s.goOnWithoutBlock now state e).1.troubles) :
    (∃ p, s.trace.leave now state = some p ∧ Makes (s.goOnWithoutBlock now state e) s.supply p) ∨
      s.trace.leave now state = none ∧
        ∃ fault, (s.goOnWithoutBlock now state e).2 = .error fault := by
  unfold goOnWithoutBlock Trace.leave at *
  split
  · exact .inl ⟨_, rfl, rfl, rfl, _, rfl, rfl, rfl⟩
  · next hfinish =>
    rw [if_neg hfinish] at hcalm
    split
    · exact .inl ⟨_, rfl, rfl, rfl, _, rfl, rfl, rfl⟩
    · next hterminate =>
      rw [if_neg hterminate] at hcalm
      split
      · exact .inr ⟨rfl, _, rfl⟩
      · next hfailure =>
        rw [if_neg hfailure] at hcalm
        have hmethod : (s.note (.dangling e)).methodOf state = Names.emptyTransition := by
          show (s.table.block? state).elim _ _ = _
          rw [hmissing]
          rfl
        -- the trace does not know why `failure` is entered, and need not
        have hsettle : s.trace.settle now
            ((s.note (.dangling e)).errorMove state .toFailure (.dangling e)) =
              s.trace.settle now
                { origin := state
                  method := Names.emptyTransition
                  value := Names.error
                  kind := .fallback
                  transition := .toFailure
                  cause := none } := by
          rw [errorMove, hmethod]
          rfl
        have hmakes := follow_makes (s := s.note (.dangling e)) (fun _ _ _ _ h => h) hcalm
        exact .inl ⟨_, rfl, hsettle ▸ hmakes⟩

section Asking

variable [Supply τ]

/-- Going on without a fault takes one value, at most, and leads on as it does in the trace. -/
theorem goOn_of_ok {now : Instant} {s : Session σ τ} {state : String}
    (hcalm : s.Calm (s.goOn .clear now state).1.troubles) {r : StepResult}
    (hok : (s.goOn .clear now state).2 = .ok r) :
    ∃ value asked p supply, s.trace.goOn s.table now state value = some (asked, p) ∧
      Makes (s.goOn .clear now state) supply p := by
  unfold goOn Table.block Trace.goOn at *
  cases hb : s.table.block? state with
  | none =>
    simp only [hb] at hcalm hok ⊢
    rcases goOnWithoutBlock_makes hb hcalm with ⟨p, hp, hmakes⟩ | ⟨-, fault, hfault⟩
    · exact ⟨"", [], p, s.supply, by rw [hp]; rfl, hmakes⟩
    · rw [hok] at hfault
      cases hfault
  | some b =>
    simp only [hb] at hcalm hok ⊢
    obtain ⟨htrace, -, hsimulating⟩ := (s.askValue_asks state b.method).keeps
    unfold selectFrom Watch.clear at *
    simp only [Bool.false_eq_true, if_false] at hcalm hok ⊢
    generalize s.askValue state b.method = asked at *
    obtain ⟨s', answer⟩ := asked
    simp only at htrace hsimulating
    match answer with
    | .error e => cases hok
    | .ok (.error trouble) =>
      -- a selector that fails leads on as one that gives the error value
      refine ⟨Names.error, _, _, s'.supply, rfl, ?_⟩
      rw [← htrace]
      exact takeError_makes (s := s'.note trouble) (hcalm.imp_left hsimulating.trans)
    | .ok (.ok value) =>
      refine ⟨value, _, _, s'.supply, rfl, ?_⟩
      rw [← htrace]
      exact takeValue_makes (fun _ => rfl) (hcalm.imp_left hsimulating.trans)

/-- A supply that gives the value leads on as the trace does with it. -/
theorem goOn_of_feeds {watch : Watch} {now : Instant} {s : Session σ τ} {state value : String}
    {asked : List (String × String)} {p : Stride} {before after : τ}
    (hwatch : ∀ look, watch look s.paused = false) (hsupply : s.supply = some before)
    (hgo : s.trace.goOn s.table now state value = some (asked, p))
    (hfeeds : Supply.Feeds before asked after) :
    Makes (s.goOn watch now state) (some after) p := by
  have hcalm : ∀ troubles, s.Calm troubles := fun _ => .inl (congrArg Option.isSome hsupply)
  unfold goOn Table.block Trace.goOn at *
  cases hb : s.table.block? state with
  | none =>
    simp only [hb] at hgo ⊢
    obtain ⟨p', hp, hgo⟩ := Option.map_eq_some_iff.1 hgo
    cases hgo
    cases hfeeds
    rcases goOnWithoutBlock_makes (e := .missingBlock state) hb (hcalm _) with
      ⟨p'', hp', hmakes⟩ | ⟨hnone, -⟩
    · rw [hp] at hp'
      cases hp'
      rw [← hsupply]
      exact hmakes
    · rw [hp] at hnone
      cases hnone
  | some b =>
    simp only [hb] at hgo ⊢
    cases hgo
    obtain ⟨after', hnext, rfl⟩ := hfeeds
    simp only [selectFrom, hwatch .firstRound, Bool.false_eq_true, if_false, askValue, hsupply,
      hnext b.method]
    exact takeValue_makes (s := { s with supply := some after' }) hwatch (.inl rfl)

end Asking

/-! ## Whole steps -/

section Stepping

variable [Supply τ]

/-- How a step gets ready to go on: it cannot start, which is a fault, or it goes on in a state from
where the task has started. -/
inductive GetsReady (watch : Watch) (now : Instant) (s : Session σ τ) (o : Outcome σ τ) :
    Option (Trace × String) → Prop
  | fault (fault : Fault) (result : o.2 = .error fault) : GetsReady watch now s o none
  | goesOn (s₁ : Session σ τ) (state : String) (outcome : o = s₁.goOn watch now state)
      (table : s₁.table = s.table) (supply : s₁.supply = s.supply)
      (paused : s.isSimulating = true → s₁.paused = s.paused) :
      GetsReady watch now s o (some (s₁.trace, state))

theorem start_getsReady {watch : Watch} {now : Instant} {s : Session σ τ}
    (hcalm : s.Calm (s.start watch now).1.troubles) :
    GetsReady watch now s (s.start watch now) (s.trace.begin s.table now) := by
  unfold Trace.begin
  cases hstart : s.table.startState with
  | error e =>
    unfold start
    rw [hstart]
    exact .fault _ rfl
  | ok state =>
    have hsimulating : s.isSimulating = true →
        (s.enterStart now state).enterLive state none = (s.enterStart now state, none) :=
      fun h => enterLive_of_isSimulating (s := s.enterStart now state) h _ _
    have htrace := ((s.enterStart now state).trace_enterLive state none).trans
      (s.trace_enterStart now state)
    have htable := (s.enterStart now state).table_enterLive state none
    have hsupply := (s.enterStart now state).supply_enterLive state none
    have herror := fun t => @isStateError_of_enterLive _ _ (s.enterStart now state) state none t
    dsimp only
    rw [← htrace]
    rw [start_eq watch now hstart] at hcalm ⊢
    generalize (s.enterStart now state).enterLive state none = entered at *
    obtain ⟨s₁, _ | trouble⟩ := entered
    · refine .goesOn s₁ state rfl htable hsupply fun h => ?_
      rw [show s₁ = s.enterStart now state from congrArg Prod.fst (hsimulating h)]
      rfl
    · -- the problem would be among those met
      have hmem : trouble ∈ (s₁.settleStart watch now state (some trouble)).1.troubles := by
        have hnote : trouble ∈ (s₁.note trouble).troubles := by simp [note]
        simp only [settleStart]
        split
        · exact hnote
        · exact troubles_goToError now _ _ _ hnote
      rcases hcalm with h | h
      · cases hsimulating h
      · have hnot := h trouble hmem
        rw [herror trouble rfl] at hnot
        cases hnot

/-- A step of a task that has not ended goes on from where the trace says that it does. -/
theorem stepSeeing_getsReady {watch : Watch} {now : Instant} {s : Session σ τ}
    (hwatch : ∀ look, watch look s.paused = false) (hsignal : s.signal? = none)
    (hongoing : s.isComplete = false) (hcalm : s.Calm (s.stepSeeing watch now).1.troubles) :
    GetsReady watch now s (s.stepSeeing watch now) (s.trace.ready s.table now) := by
  unfold stepSeeing at *
  simp only [hongoing, hsignal, hwatch, Bool.false_eq_true, if_false] at hcalm ⊢
  split
  · next hphase =>
    rw [Trace.ready_of_fresh _ _ (.inl hphase)]
    simp only [hphase] at hcalm
    exact start_getsReady hcalm
  · next hcurrent _ =>
    rw [Trace.ready_of_fresh _ _ (.inr hcurrent)]
    simp only [hcurrent] at hcalm
    exact start_getsReady hcalm
  · next state hcurrent hphase =>
    rw [Trace.ready_of_started _ _ hphase hcurrent]
    exact .goesOn s state rfl rfl rfl fun _ => rfl

/-- A quiet step that goes well is the step of the trace for some value. -/
theorem stepSeeing_of_ok {now : Instant} {s : Session σ τ} (hsignal : s.signal? = none)
    (hcalm : s.Calm (s.stepSeeing .clear now).1.troubles) {r : StepResult}
    (hok : (s.stepSeeing .clear now).2 = .ok r) :
    ∃ value asked p supply, s.trace.stepOn s.table now value = some (asked, p) ∧
      Makes (s.stepSeeing .clear now) supply p := by
  unfold Trace.stepOn
  by_cases hcomplete : s.isComplete = true
  · refine ⟨"", [], ⟨s.trace, 0, true⟩, s.supply, if_pos hcomplete, ?_⟩
    unfold stepSeeing
    rw [if_pos hcomplete]
    exact ⟨rfl, rfl, _, rfl, rfl, rfl⟩
  · have hready :=
      stepSeeing_getsReady (fun _ => rfl) hsignal (Bool.eq_false_iff.2 hcomplete) hcalm
    generalize s.trace.ready s.table now = ready at *
    cases hready with
    | fault fault h =>
      rw [hok] at h
      cases h
    | goesOn s₁ state outcome table supply paused =>
      rw [outcome] at hcalm hok ⊢
      have hsimulating : s₁.isSimulating = s.isSimulating := congrArg Option.isSome supply
      obtain ⟨value, asked, p, after, hgo, hmakes⟩ :=
        goOn_of_ok (hcalm.imp_left hsimulating.trans) hok
      rw [table] at hgo
      exact ⟨value, asked, p, after, by rw [if_neg (by exact hcomplete)]; exact hgo, hmakes⟩

/-- A step of the trace is made by every task with this trace whose supply gives the value. -/
theorem stepSeeing_of_feeds {watch : Watch} {now : Instant} {s : Session σ τ} {value : String}
    {asked : List (String × String)} {p : Stride} {before after : τ}
    (hwatch : ∀ look, watch look s.paused = false) (hsignal : s.signal? = none)
    (hsupply : s.supply = some before)
    (hstep : s.trace.stepOn s.table now value = some (asked, p))
    (hfeeds : Supply.Feeds before asked after) :
    Makes (s.stepSeeing watch now) (some after) p := by
  have hsimulating : s.isSimulating = true := congrArg Option.isSome hsupply
  unfold Trace.stepOn at hstep
  by_cases hcomplete : s.isComplete = true
  · rw [if_pos (by exact hcomplete)] at hstep
    cases hstep
    cases hfeeds
    unfold stepSeeing
    rw [if_pos hcomplete]
    exact ⟨rfl, hsupply, _, rfl, rfl, rfl⟩
  · have hready : GetsReady watch now s (s.stepSeeing watch now) (s.trace.ready s.table now) :=
      stepSeeing_getsReady hwatch hsignal (Bool.eq_false_iff.2 hcomplete) (.inl hsimulating)
    rw [if_neg (by exact hcomplete)] at hstep
    generalize s.trace.ready s.table now = ready at *
    cases hready with
    | fault => cases hstep
    | goesOn s₁ state outcome table supply paused =>
      rw [outcome]
      refine goOn_of_feeds ?_ (supply.trans hsupply) (by rw [table]; exact hstep) hfeeds
      rw [paused hsimulating]
      exact hwatch

end Stepping

end Session
end TaskTable
