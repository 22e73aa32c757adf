import TaskTable.CommandLine.Run
import TaskTable.Proofs.Recording.Multiline
import TaskTable.Proofs.Session.Delivery
import TaskTable.Proofs.Session.Replay
import TaskTable.Proofs.Session.Safety
import TaskTable.Proofs.Session.Supplied

/-!
# The verdict of a verification

A table passes a verification exactly if the run along the entries has no failed step and comes to
the last entry (`verify_exact`). Step by step, what the run has recorded are the entries that it was
given so far (`Along.step`). The verdict goes by the number of entries that are read back from the
recording, which is right because what a script can give is never read back as less or as more.
-/

namespace TaskTable

/-- A verifying supply gives the value of its next entry, in the state of that entry. -/
theorem VerifyingSupply.next_eq_ok {x y : VerifyingSupply} {state method value : String}
    (h : Supply.next x state method = (y, .ok value)) :
    x.entries[x.position]? = some (state, value) ∧
      y = { x with position := x.position + 1 } := by
  simp only [Supply.next, next] at h
  split at h
  · cases h
  · next expected v hentry =>
    split at h
    · next hstate =>
      cases h
      exact ⟨hstate ▸ hentry, rfl⟩
    · cases h

namespace Session

variable {σ τ : Type} [Supply τ]

/-! ## Runs that stop at the end -/

/-- Nothing comes of further steps of a task that has ended. -/
theorem steps_of_isComplete {s : Session σ τ} (h : s.isComplete = true) (times : List Instant) :
    s.steps times = (s, times.map fun _ => .ok (s.completed 0)) := by
  have hstep : ∀ now, s.step now = (s, .ok (s.completed 0)) := by
    intro now
    unfold step stepSeeing
    rw [if_pos h]
  induction times with
  | nil => rfl
  | cons now times ih => rw [steps_cons, hstep, ih, List.map_cons]

/-- A run that stops where the task has ended goes as one that makes all of its steps: either no
step fails and both come to the same, or a step fails in both. -/
theorem runFrom_eq_steps {s : Session σ τ} (hstage : s.Stage) {state : String}
    (hstart : s.table.startState = .ok state) (left : Nat) (so : RunSummary) (now : Instant) :
    (∃ (results : List StepResult) (summary : RunSummary),
      (s.steps (List.replicate left now)).2 = results.map .ok ∧
      s.runFrom false left so now = ((s.steps (List.replicate left now)).1, .ok summary)) ∨
    ∃ fault s' e, Except.error fault ∈ (s.steps (List.replicate left now)).2 ∧
      s.runFrom false left so now = (s', .error e) := by
  induction left generalizing s so with
  | zero => exact .inl ⟨[], _, rfl, rfl⟩
  | succ left ih =>
    obtain ⟨hstage', htells, -⟩ := stepSeeing_stage .steady now hstage hstart
    have htable : (s.step now).1.table = s.table := (s.stepSeeing_changes .steady now).table_eq
    rw [List.replicate_succ, steps_cons, runFrom]
    change (s.step now).1.Stage at hstage'
    change Tells (s.step now) at htells
    generalize s.step now = o at htable hstage' htells ⊢
    obtain ⟨s', fault | r⟩ := o
    · exact .inr ⟨fault, s', _, List.mem_cons_self, rfl⟩
    · dsimp only at htable hstage' ⊢
      cases hcomplete : r.complete with
      | true =>
        -- the run stops here, and nothing comes of the steps that are left
        have hended : s'.isComplete = true := (htells.complete r rfl).1 hcomplete
        refine .inl ⟨r :: List.replicate left (s'.completed 0),
          { so with steps := so.steps + 1, last := r }, ?_, ?_⟩
        · rw [steps_of_isComplete hended, List.map_replicate, List.map_cons, List.map_replicate]
        · rw [if_pos rfl, steps_of_isComplete hended]
      | false =>
        rw [if_neg Bool.false_ne_true, if_neg Bool.false_ne_true]
        rcases ih hstage' (htable ▸ hstart) { so with steps := so.steps + 1, last := r } with
          ⟨results, summary, hok, hrun⟩ | ⟨fault, s'', e, hfault, hrun⟩
        · exact .inl ⟨r :: results, summary, by rw [hok, List.map_cons], hrun⟩
        · exact .inr ⟨fault, s'', e, List.mem_cons_of_mem _ hfault, hrun⟩

end Session

namespace Verification

open Session

variable {σ : Type} {entries : List (String × String)} {n : Nat} {s : Session σ VerifyingSupply}

/-! ## What was recorded so far -/

/-- The task was given the first `n` entries, and recorded these and no others. -/
structure Along (entries : List (String × String)) (n : Nat) (s : Session σ VerifyingSupply) :
    Prop where
  rests : s.Rests
  supply : s.supply = some ⟨entries, n⟩
  selected : s.selected = entries.take n

theorem Along.step (h : Along entries n s) (now : Instant) :
    ∃ m, Along entries m (s.step now).1 := by
  have hrests : (s.step now).1.Rests := h.rests.step now
  cases stepSeeing_draws .steady now h.supply with
  | nothing consulted supply selected fault => exact ⟨n, hrests, supply, selected.trans h.selected⟩
  | gaveOut state method y e next consulted supply selected result =>
    have hkeeps : y = ⟨entries, n⟩ := by
      have hplace := VerifyingSupply.keepsPlace ⟨entries, n⟩ state method e
      rw [next] at hplace
      exact hplace rfl
    exact ⟨n, hrests, hkeeps ▸ supply, selected.trans h.selected⟩
  | value state method v y next consulted supply selected result =>
    obtain ⟨hentry, rfl⟩ := VerifyingSupply.next_eq_ok next
    refine ⟨n + 1, hrests, supply, selected.trans ?_⟩
    rw [h.selected, List.take_add_one, hentry, Option.toList_some]
  | lost state method v y next consulted supply selected result held =>
    -- nobody holds the task back
    have hheld : s.paused = true := held
    rw [h.rests.unpaused] at hheld
    cases hheld

theorem Along.runFrom (h : Along entries n s) (honorWaits : Bool) (left : Nat) (so : RunSummary)
    (now : Instant) : ∃ m, Along entries m (s.runFrom honorWaits left so now).1 := by
  induction left generalizing n s so now with
  | zero => exact ⟨n, h⟩
  | succ left ih =>
    obtain ⟨m, hm⟩ := h.step now
    rw [Session.runFrom]
    generalize s.step now = o at hm ⊢
    obtain ⟨s', fault | r⟩ := o
    · exact ⟨m, hm⟩
    · dsimp only
      split
      · exact ⟨m, hm⟩
      · split
        · exact ih hm _ _
        · exact ih hm _ _

/-- All entries were recorded exactly if all were given. -/
theorem Along.isFinished_iff (h : Along entries n s) :
    (∃ rest, s.supply = some rest ∧ rest.isFinished = true) ↔
      ¬ s.selected.length < entries.length := by
  rw [h.supply, h.selected, List.length_take, Nat.not_lt, Nat.le_min]
  constructor
  · rintro ⟨rest, ⟨⟩, hfinished⟩
    exact ⟨of_decide_eq_true hfinished, Nat.le_refl _⟩
  · rintro ⟨hle, -⟩
    exact ⟨_, rfl, decide_eq_true hle⟩

theorem Along.selected_eq (h : Along entries n s)
    (hfinished : ∃ rest, s.supply = some rest ∧ rest.isFinished = true) :
    s.selected = entries := by
  obtain ⟨rest, hrest, hfinished⟩ := hfinished
  rw [h.supply] at hrest
  cases hrest
  rw [h.selected, List.take_of_length_le (of_decide_eq_true hfinished)]

/-- What was recorded is read back with all of its entries. -/
theorem Along.read (h : Along entries n s) (hentries : ∀ e ∈ entries, Script.Given e) :
    Script.readEntries s.task.recording.verificationScript =
      .ok (s.task.recording.selected.map Script.settled) := by
  refine Script.readEntries_of_given fun e he => hentries e ?_
  have hmem : e ∈ s.selected := he
  rw [h.selected] at hmem
  exact List.mem_of_mem_take hmem

/-! ## The verdict -/

/-- No step of a run fails, and every entry is consumed in it. -/
def Passes (maxSteps : Nat) (now : Instant) (s : Session Unit VerifyingSupply) : Prop :=
  (∃ results : List StepResult,
      (s.steps (List.replicate maxSteps now)).2 = results.map .ok) ∧
    ∃ rest, (s.steps (List.replicate maxSteps now)).1.supply = some rest ∧ rest.isFinished = true

/-- The session of a verification has been given nothing and is untouched. -/
theorem session_cases {t : Table} {taskId : String} {now : Instant}
    {s : Session Unit VerifyingSupply} (h : session t entries taskId now = .ok s) :
    Along entries 0 s ∧ s.Stage ∧ ∃ state, s.table.startState = .ok state := by
  obtain ⟨rfl, hstart⟩ := Setup.eq_newSession rfl h
  exact ⟨⟨⟨rfl, rfl, rfl⟩, rfl, rfl⟩, .untouched ⟨rfl, rfl, rfl, rfl, rfl, rfl, rfl, rfl⟩, hstart⟩

/-- What is recorded decides on a run without failed steps. -/
theorem judge_isOk_iff (h : Along entries n s) (hentries : ∀ e ∈ entries, Script.Given e)
    (status : Status) :
    (∃ status', judge s.task.recording entries.length status = .ok status') ↔
      ∃ rest, s.supply = some rest ∧ rest.isFinished = true := by
  rw [h.isFinished_iff]
  unfold judge
  rw [h.read hentries]
  dsimp only
  rw [List.length_map]
  change _ ↔ ¬ s.task.recording.selected.length < entries.length
  split
  · next hless => simp [hless]
  · next hnot => exact ⟨fun _ => hnot, fun _ => ⟨status, rfl⟩⟩

/-- A run passes exactly if it comes to a summary with every entry consumed. -/
theorem passes_iff {s : Session Unit VerifyingSupply} (hstage : s.Stage) {state : String}
    (hstart : s.table.startState = .ok state) (maxSteps : Nat) (now : Instant) :
    Passes maxSteps now s ↔ ∃ s' summary, s.run maxSteps false now = (s', .ok summary) ∧
      ∃ rest, s'.supply = some rest ∧ rest.isFinished = true := by
  unfold Passes run
  rcases runFrom_eq_steps hstage hstart maxSteps ⟨0, .running 0, false, 0⟩ now with
    ⟨results, summary, hok, hrun⟩ | ⟨fault, s', e, hfault, hrun⟩
  · rw [hrun, hok]
    constructor
    · rintro ⟨-, hfinished⟩
      exact ⟨_, _, rfl, hfinished⟩
    · rintro ⟨_, _, heq, hfinished⟩
      cases heq
      exact ⟨⟨results, rfl⟩, hfinished⟩
  · rw [hrun]
    constructor
    · rintro ⟨⟨results, hok⟩, -⟩
      rw [hok] at hfault
      obtain ⟨_, -, hresult⟩ := List.mem_map.1 hfault
      cases hresult
    · rintro ⟨_, _, heq, -⟩
      cases heq

theorem verify_isOk_iff {t : Table} (hentries : ∀ e ∈ entries, Script.Given e) (maxSteps : Nat)
    (taskId : String) (now : Instant) :
    (∃ status, verify t entries maxSteps taskId now = .ok status) ↔
      ∃ s, session t entries taskId now = .ok s ∧ Passes maxSteps now s := by
  unfold verify
  cases hsession : session t entries taskId now with
  | error f => simp
  | ok s =>
    obtain ⟨halong, hstage, state, hstart⟩ := session_cases hsession
    obtain ⟨m, hlast⟩ := halong.runFrom false maxSteps ⟨0, .running 0, false, 0⟩ now
    change Along entries m (s.run maxSteps false now).1 at hlast
    have hpasses := passes_iff hstage hstart maxSteps now
    dsimp only
    generalize s.run maxSteps false now = ran at hlast hpasses ⊢
    obtain ⟨s', e | summary⟩ := ran
    · simp [hpasses]
    · simpa [hpasses] using judge_isOk_iff hlast hentries summary.last.status

end Verification

namespace CommandLine

/-- The command reads both files and leaves the verdict to the verification. -/
theorem run_verify {w : Surroundings Id} (settings : Settings) {path script source text : String}
    {t : Table} {entries : List (String × String)} (htable : w.files path = .ok source)
    (hcompile : Table.compile source = .ok t) (hscript : w.files script = .ok text)
    (hread : Script.readEntries text = .ok entries) :
    (∃ o, (verify w settings path script).run = .ok o ∧ o.isOk = true) ↔
      ∃ status, Verification.verify t entries settings.maxSteps w.freshTaskId w.now =
        .ok status := by
  unfold verify readTable readText
  simp only [ExceptT.run, bind, ExceptT.bind, ExceptT.mk, ExceptT.bindCont, liftM, monadLift,
    MonadLift.monadLift, ExceptT.lift, Functor.map, htable, orFail, pure, ExceptT.pure, hcompile,
    hscript, hread]
  cases Verification.verify t entries settings.maxSteps w.freshTaskId w.now with
  | error e => exact ⟨by rintro ⟨_, ⟨⟩, -⟩, by rintro ⟨_, ⟨⟩⟩⟩
  | ok status => exact ⟨fun _ => ⟨status, rfl⟩, fun _ => ⟨_, rfl, rfl⟩⟩

end CommandLine

namespace Verification

open Session

/-- The verdict on a table is exact. It passes if and only if the run along the entries of the
script has no failed step and consumes every entry; what the selectors gave in the run are then the
entries, in order. However the run went, its recording is read back as a script with as many entries
as were selected, whose values are those that were selected but for carriage returns at line
ends. -/
theorem verify_exact {w : CommandLine.Surroundings Id} (settings : Settings)
    {path script source text : String} {t : Table} {entries : List (String × String)}
    (htable : w.files path = .ok source) (hcompile : Table.compile source = .ok t)
    (hscript : w.files script = .ok text) (hread : Script.readEntries text = .ok entries) :
    ((∃ o, (CommandLine.verify w settings path script).run = .ok o ∧ o.isOk = true) ↔
      ∃ s, session t entries w.freshTaskId w.now = .ok s ∧ Passes settings.maxSteps w.now s) ∧
    ∀ s, session t entries w.freshTaskId w.now = .ok s →
      (Passes settings.maxSteps w.now s →
        (s.run settings.maxSteps false w.now).1.task.recording.selected = entries) ∧
      ∃ replayed,
        Script.readEntries
          (s.run settings.maxSteps false w.now).1.task.recording.verificationScript =
            .ok replayed ∧
        replayed.length =
          (s.run settings.maxSteps false w.now).1.task.recording.selected.length ∧
        replayed = (s.run settings.maxSteps false w.now).1.task.recording.selected.map
          Script.settled := by
  have hentries := Script.given_of_readEntries hread
  refine ⟨(CommandLine.run_verify settings htable hcompile hscript hread).trans
    (verify_isOk_iff hentries _ _ _), fun s hsession => ?_⟩
  obtain ⟨halong, hstage, state, hstart⟩ := session_cases hsession
  obtain ⟨m, hlast⟩ := halong.runFrom false settings.maxSteps ⟨0, .running 0, false, 0⟩ w.now
  change Along entries m (s.run settings.maxSteps false w.now).1 at hlast
  refine ⟨fun hpasses => ?_, _, hlast.read hentries, List.length_map _, rfl⟩
  obtain ⟨s', summary, hrun, hfinished⟩ := (passes_iff hstage hstart _ _).1 hpasses
  rw [hrun] at hlast ⊢
  exact hlast.selected_eq hfinished

/-- A script with a comment, a value of two lines, and a value that needs double quotes. -/
def unrulyScript : String :=
  "poll again # once\npoll 'no # such\r\r\nvalue'\nfailure \"it's # over\"\n"

/-- The entries of `unrulyScript`. -/
def unrulyEntries : List (String × String) :=
  [("poll", "again"), ("poll", "no # such\r\nvalue"), ("failure", "it's # over")]

/-- A table and a script, and nothing else. -/
def unrulyDesk : CommandLine.Surroundings Id where
  files path := if path = "table" then .ok guardedSource else .ok unrulyScript
  environment := []
  now := ⟨0, 0⟩
  freshSeed := 0
  freshTaskId := "task"

/-- The second value of the script is refused, the task recovers by the third, and the recording is
read back with three entries, one of which has lost a carriage return. -/
theorem verify_exact_unrulyScript :
    (∃ o, (CommandLine.verify unrulyDesk { maxSteps := 5 } "table" "script").run = .ok o ∧
      o.isOk = true) ∧
    ∃ s, session guardedTable unrulyEntries "task" ⟨0, 0⟩ = .ok s ∧
      (s.run 5 false ⟨0, 0⟩).1.task.recording.selected = unrulyEntries ∧
      ∃ replayed,
        Script.readEntries (s.run 5 false ⟨0, 0⟩).1.task.recording.verificationScript =
          .ok replayed ∧
        replayed.length = 3 ∧ replayed ≠ unrulyEntries := by
  obtain ⟨s, hs⟩ : ∃ s, session guardedTable unrulyEntries "task" ⟨0, 0⟩ = .ok s := ⟨_, rfl⟩
  have hpasses : Passes 5 ⟨0, 0⟩ s := by
    cases hs
    exact ⟨⟨.running 0 :: .running 0 :: List.replicate 3 ⟨0, true, .failed,
      some "state 'poll' has no transition for value 'no # such\r\nvalue'"⟩, rfl⟩, _, rfl, rfl⟩
  have htable : unrulyDesk.files "table" = .ok guardedSource := rfl
  have hscript : unrulyDesk.files "script" = .ok unrulyScript := rfl
  have hread : Script.readEntries unrulyScript = .ok unrulyEntries := rfl
  obtain ⟨hverdict, hrun⟩ :=
    verify_exact { maxSteps := 5 } htable compile_guardedSource hscript hread
  obtain ⟨hselected, replayed, hreplayed, hlength, hvalues⟩ := hrun s hs
  have hall : (s.run 5 false ⟨0, 0⟩).1.task.recording.selected = unrulyEntries := hselected hpasses
  have hsettled : replayed = unrulyEntries.map Script.settled :=
    hvalues.trans (congrArg (List.map Script.settled) hall)
  refine ⟨hverdict.2 ⟨s, hs, hpasses⟩, s, hs, hall, replayed, hreplayed, ?_, ?_⟩
  · exact hlength.trans (congrArg List.length hall)
  · rw [hsettled]
    decide

end Verification
end TaskTable
