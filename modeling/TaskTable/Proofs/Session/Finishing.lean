import TaskTable.Proofs.Check.Paths
import TaskTable.Proofs.Session.Replay
import TaskTable.Proofs.Session.Safety

/-!
# Tasks that can be finished

In a table without missing blocks, with a path to `finish` from every block and without limits, a
task can be brought to `finish` from wherever it is: the values along a path make quiet steps
(`finishes_of_path`), and `can_be_finished` gives them to a supply.
-/

namespace TaskTable

/-! ## Following an edge -/

/-- A transition is taken by the value that it is declared for. -/
theorem Block.WellFormed.next?_of_mem {b : Block} (h : b.WellFormed) {e : Transition}
    (he : e ∈ b.transitions) : b.next? e.value = some e := by
  have hfound : b.transition? e.value = some e := find?_of_nodup h.values he
  rw [next?, hfound]

/-- A table in which every transition may be taken any number of times. -/
def Table.Unlimited (t : Table) : Prop :=
  ∀ b ∈ t.blocks, ∀ e ∈ b.transitions, e.max = 0

namespace Trace

open Session (Move)

variable {t : Table} {tr tr₁ : Trace} {z : Instant} {state : String} {b : Block}

theorem isExhausted_of_max {e : Transition} (h : e.max = 0) : tr.isExhausted e = false := by
  simp [isExhausted, h]

/-- Without limits, the value of a transition takes it, be it `!` or not. -/
theorem choice_of_mem (hb : b.WellFormed) {e : Transition} (he : e ∈ b.transitions)
    (hmax : e.max = 0) : (tr.choice b state e.value).transition = e := by
  have hnext := hb.next?_of_mem he
  have hopen : tr.isExhausted e = false := isExhausted_of_max hmax
  unfold choice
  split
  · next hvalue =>
    rw [hvalue] at hnext
    show tr.errorRoute b = e
    simp [errorRoute, hnext, hopen]
  · simp [hnext, hopen]

/-- Every error route leads to a known state. -/
theorem isKnown_errorRoute (hclosed : t.Closed) (hb : b ∈ t.blocks) :
    t.isKnown (tr.errorRoute b).target = true := by
  unfold errorRoute
  split
  · next e hnext =>
    split
    · exact hclosed.isKnown_failure
    · exact hclosed.isKnown_next hb hnext
  · exact hclosed.isKnown_failure

/-! ## Finishing -/

/-- Whether values, one for each step, make quiet steps that end the task in `finish`. -/
def Finishes (t : Table) (tr : Trace) : Prop :=
  ∃ asked paces tr', Run t tr asked paces tr' ∧ paces.length = asked.length ∧
    tr'.phase = .finished ∧ tr'.current = some Names.finish

/-- A value finishes the task if it leads to `finish`, or to where the task can be finished. -/
theorem finishes_of_choice (value : String) (hongoing : tr.phase.isTerminal = false)
    (hready : tr.ready t z = some (tr₁, state)) (hb : t.block? state = some b)
    (hrest : (tr₁.choice b state value).transition.target ≠ Names.finish →
      (tr₁.move z (tr₁.choice b state value)).Finishes t) : tr.Finishes t := by
  have hstep : tr.stepOn t z value =
      some ([(state, value)], tr₁.settle z (tr₁.choice b state value)) := by
    unfold stepOn
    rw [if_neg (by simp [hongoing]), hready, Option.bind_some, goOn, hb]
  by_cases hfinish : (tr₁.choice b state value).transition.target = Names.finish
  · refine ⟨_, _, _, .cons z value hstep (.nil _), rfl, ?_, ?_⟩ <;> rw [settle, if_pos hfinish]
    · rfl
    · exact congrArg some hfinish
  · obtain ⟨asked, paces, tr', hrun, hlength, hphase, hcurrent⟩ := hrest hfinish
    have hsettle : (tr₁.settle z (tr₁.choice b state value)).trace =
        tr₁.move z (tr₁.choice b state value) := by rw [settle, if_neg hfinish]
    rw [← hsettle] at hrun
    exact ⟨_, _, tr', .cons z value hstep hrun, congrArg (· + 1) hlength, hphase, hcurrent⟩

/-- Along a path to `finish` a task can be finished. -/
theorem finishes_of_path (hwf : t.WellFormed) (hunlimited : t.Unlimited)
    (hpath : Relation.ReflTransGen t.Leads state Names.finish) (hne : state ≠ Names.finish)
    (hongoing : tr.phase.isTerminal = false) (hready : tr.ready t z = some (tr₁, state))
    (hphase : tr₁.phase = .running) : tr.Finishes t := by
  induction hpath using Relation.ReflTransGen.head_induction_on generalizing tr tr₁ with
  | refl => exact absurd rfl hne
  | head hleads _ ih =>
    obtain ⟨b, hb, rfl, e, he, rfl⟩ := hleads
    -- the value that the edge is declared for takes it
    have htaken : (tr₁.choice b b.state e.value).transition = e :=
      choice_of_mem (hwf.blocks b hb) he (hunlimited b hb e he)
    refine finishes_of_choice e.value hongoing hready (hwf.block?_of_mem hb)
      fun hfinish => ?_
    rw [htaken] at hfinish
    have hmoved : (tr₁.move z (tr₁.choice b b.state e.value)).phase = .running := hphase
    refine ih hfinish ?_ (ready_of_started t z ?_ ?_) hmoved
    · rw [hmoved]; rfl
    · rw [hmoved]; exact Phase.noConfusion
    · rw [move_current, htaken]

/-- A task that is in a state with a block, or starts in one, can be finished if every block has a
path to `finish`. In `finish` itself, where a task may start, the error route is taken first. -/
theorem finishes_of_ready (hwf : t.WellFormed) (hclosed : t.Closed) (hunlimited : t.Unlimited)
    (hpaths : ∀ b ∈ t.blocks, Relation.ReflTransGen t.Leads b.state Names.finish)
    (hblock : t.hasBlock state = true) (hongoing : tr.phase.isTerminal = false)
    (hready : tr.ready t z = some (tr₁, state)) (hphase : tr₁.phase = .running) :
    tr.Finishes t := by
  have hpath : ∀ {state}, t.hasBlock state = true →
      Relation.ReflTransGen t.Leads state Names.finish := by
    intro state hblock
    obtain ⟨b, hb⟩ := Option.isSome_iff_exists.1 hblock
    obtain ⟨hmem, rfl⟩ := hwf.mem_of_block? hb
    exact hpaths b hmem
  by_cases hfinish : state = Names.finish
  · obtain ⟨b, hb⟩ := Option.isSome_iff_exists.1 hblock
    obtain ⟨hmem, -⟩ := hwf.mem_of_block? hb
    refine finishes_of_choice Names.error hongoing hready hb fun hne => ?_
    have hroute : tr₁.choice b state Names.error = tr₁.errorChoice b state none := if_pos rfl
    rw [hroute] at hne ⊢
    have hknown : t.isKnown (tr₁.errorRoute b).target = true := isKnown_errorRoute hclosed hmem
    have hmoved : (tr₁.move z (tr₁.errorChoice b state none)).phase = .running := hphase
    refine finishes_of_path hwf hunlimited (hpath (Table.Closed.hasBlock_of_isKnown hknown hne))
      hne ?_ (ready_of_started t z ?_ rfl) hmoved
    · rw [hmoved]; rfl
    · rw [hmoved]; exact Phase.noConfusion
  · exact finishes_of_path hwf hunlimited (hpath hblock) hfinish hongoing hready hphase

end Trace

namespace Session

variable {σ τ τ' : Type}

/-- The session simulated by a supply, of whatever type, which is rewound first. -/
def simulatedBy [Supply τ'] (s : Session σ τ) (supply : τ') : Session σ τ' :=
  { s with supply := some (Supply.rewind supply) }

/-- Whether a session comes to `finish` by simulated steps, at any times, one for each of these
values. -/
def FinishesOn [Supply τ'] (s : Session σ τ) (supply : τ') (values : List (String × String)) :
    Prop :=
  ∀ times : List Instant, times.length = values.length →
    (∃ results : List StepResult, ((s.simulatedBy supply).steps times).2 = results.map .ok) ∧
      ((s.simulatedBy supply).steps times).1.task.phase = .finished ∧
      ((s.simulatedBy supply).steps times).1.task.current = some Names.finish

/-- A trace that can be finished is finished by every supply that gives the values. -/
theorem exists_finishesOn {s : Session σ τ} (hfinishes : s.trace.Finishes s.table)
    (hsignal : s.signal? = none) (hpaused : s.paused = false) :
    ∃ values : List (String × String), ∀ {τ' : Type} [Supply τ'] (supply after : τ'),
      Supply.Feeds (Supply.rewind supply) values after → s.FinishesOn supply values := by
  obtain ⟨values, paces, tr', hrun, hlength, hphase, hcurrent⟩ := hfinishes
  refine ⟨values, fun supply after hfeeds times htimes => ?_⟩
  have hrests : (s.simulatedBy supply).Rests := ⟨rfl, hsignal, hpaused⟩
  obtain ⟨results, hresults, -, hlast, -⟩ := steps_of_run hrun (z := ⟨0, 0⟩)
    (s := s.simulatedBy supply) (htimes.trans hlength.symm) rfl rfl hrests rfl hfeeds
  exact ⟨⟨results, hresults⟩, (congrArg Trace.phase hlast).trans hphase,
    (congrArg Trace.current hlast).trans hcurrent⟩

/-- A task of a table that a check finds in order can always be finished, if no transition is
limited. Wherever a course of a new task has led, as long as it has not ended, no signal is pending
and it is not held back, there are values that bring it to `finish`, one step a value. Every supply
that gives these values in their states does so, the verifying one among them. -/
theorem can_be_finished [Supply τ] {source : String} {t : Table}
    (hcompile : Table.compile source = .ok t) {c : Option Catalog}
    (hblocks : (Check.run t c).ofKind .missingBlock = [])
    (hpaths : (Check.run t c).ofKind .noPathToFinish = []) (hunlimited : t.Unlimited)
    {u : Setup σ τ} (htable : u.table = t) (hnew : u.stored = none) {now : Instant}
    {s : Session σ τ} (hbuild : (u.build now).2 = .ok s) (as : List (Action τ))
    (hongoing : (s.course as).isComplete = false) (hsignal : (s.course as).signal? = none)
    (hpaused : (s.course as).paused = false) :
    ∃ values : List (String × String),
      (s.course as).FinishesOn (VerifyingSupply.ofEntries values) values ∧
      ∀ {τ' : Type} [Supply τ'] (supply after : τ'),
        Supply.Feeds (Supply.rewind supply) values after →
          (s.course as).FinishesOn supply values := by
  obtain ⟨rfl, state, hstart⟩ := u.eq_newSession hnew hbuild
  subst htable
  have hwf : u.table.WellFormed := Table.wellFormed_of_compile hcompile
  have hclosed : u.table.Closed := Check.closed_of_clean hblocks
  have hsettled : ((u.newSession now).course as).trace.Settled u.table :=
    settled_course hwf hclosed rfl (fun h => by cases h) as
  have htable : ((u.newSession now).course as).table = u.table := table_course _ as
  generalize (u.newSession now).course as = s at *
  have hfinishes : s.trace.Finishes s.table := by
    rw [htable]
    have hleads := fun b hb => Check.path_of_clean (b := b) hpaths hb
    cases hphase : s.task.phase with
    | notStarted =>
      have hready : s.trace.ready u.table ⟨0, 0⟩ =
          some ((s.trace.stop .running).arrive ⟨0, 0⟩ state true, state) := by
        rw [Trace.ready_of_fresh _ _ (.inl hphase), Trace.begin, hstart]
      exact Trace.finishes_of_ready hwf hclosed hunlimited hleads
        (hwf.hasBlock_of_startState hstart) hongoing hready rfl
    | running =>
      obtain ⟨state', hcurrent, hblock⟩ := hsettled hphase
      have hready : s.trace.ready u.table ⟨0, 0⟩ = some (s.trace, state') := by
        refine Trace.ready_of_started _ _ ?_ hcurrent
        rw [show s.trace.phase = .running from hphase]
        exact Phase.noConfusion
      exact Trace.finishes_of_ready hwf hclosed hunlimited hleads hblock hongoing hready hphase
    | finished | terminated =>
      rw [isComplete, hphase] at hongoing
      cases hongoing
  obtain ⟨values, hvalues⟩ := exists_finishesOn hfinishes hsignal hpaused
  exact ⟨values, hvalues _ _ (VerifyingSupply.feeds_ofEntries values), hvalues⟩

/-! ## A poll without limits -/

/-- A table whose task may poll as often as it likes, and polls again after a failure. -/
def patientSource : String :=
  "poll:check \x7b\n again poll\n done finish\n\x7d\n" ++
    "failure \x7b\n * poll\n\x7d\nterminate \x7b\n * finish\n\x7d\n"

def patientTable : Table where
  blocks :=
    [{ state := "poll"
       method := "check"
       transitions :=
        [{ value := "again", target := "poll", line := 2 },
          { value := "done", target := "finish", line := 3 }]
       line := 1 },
      { state := "failure", transitions := [{ value := "*", target := "poll", line := 6 }],
        line := 5 },
      { state := "terminate", transitions := [{ value := "*", target := "finish", line := 9 }],
        line := 8 }]
  index := .ofList [("poll", 0), ("failure", 1), ("terminate", 2)]
  sourceHash := Digest.sha256 patientSource

theorem compile_patientSource : Table.compile patientSource = .ok patientTable :=
  Table.compile_of_foldlM (u := { table := { patientTable with sourceHash := "" } }) rfl rfl

/-- A new task of `patientTable`, simulated by a script that ends with a value that leads
nowhere. -/
def patientPoll : Setup Unit ScriptedSupply where
  table := patientTable
  handler := Handler.none
  memory := ()
  taskId := "poll"
  supply := some { values := .ofList [("poll", ["again", "lost"])] }

/-- After two steps the task is in `failure`; from there it can still be finished. -/
theorem can_be_finished_patientPoll :
    (patientPoll.build ⟨0, 0⟩).2 = .ok (patientPoll.newSession ⟨0, 0⟩) ∧
      ((patientPoll.newSession ⟨0, 0⟩).course
        (List.replicate 2 (.step .steady ⟨0, 0⟩))).task.current = some "failure" ∧
      ∃ values, ((patientPoll.newSession ⟨0, 0⟩).course
        (List.replicate 2 (.step .steady ⟨0, 0⟩))).FinishesOn (VerifyingSupply.ofEntries values)
          values := by
  have hbuild : (patientPoll.build ⟨0, 0⟩).2 = .ok (patientPoll.newSession ⟨0, 0⟩) := rfl
  have hunlimited : patientTable.Unlimited := by
    unfold Table.Unlimited
    decide
  obtain ⟨values, hvalues, -⟩ := can_be_finished compile_patientSource (c := none) rfl rfl
    hunlimited rfl rfl hbuild (List.replicate 2 (.step .steady ⟨0, 0⟩)) rfl rfl rfl
  exact ⟨hbuild, rfl, values, hvalues⟩

end Session

end TaskTable
