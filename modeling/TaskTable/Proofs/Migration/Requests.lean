import Mathlib.Data.Option.Basic
import TaskTable.Proofs.Migration.Hooks

/-!
# Requests that are met and requests that are refused

Requests are met if every state that they name is known, and what they come to then is described
without the order in which they are gone through: the task moves, and the counts that some request
asks to be forgotten are gone (`apply_met`). Otherwise they are refused for the first state that is
unknown. What a task is left with then does not matter, since nobody is handed it: the build that
the hook ran for fails as well (`build_refused`).
-/

namespace TaskTable

/-! ## What is to be forgotten -/

/-- Whether a transition out of a state is declared on a line. -/
def Table.isLeftOn (table : Table) (line : Nat) (state : String) : Bool :=
  (table.block? state).any fun b => b.transitions.any (·.line == line)

/-- Whether the transition that a value takes out of a state is declared on a line: the one that is
declared for the value, else the wildcard's. -/
def Table.isTakenOn (table : Table) (line : Nat) (choice : String × String) : Bool :=
  (table.block? choice.1).any fun b =>
    (b.transition? choice.2 <|> b.transition? Names.wildcard).any (·.line == line)

/-- Whether requests ask for the count of the transition on a line to be forgotten. -/
def Requests.forgets (r : Requests) (table : Table) (line : Nat) : Bool :=
  r.resetAll || r.resetStates.any (table.isLeftOn line) || r.resetCounts.any (table.isTakenOn line)

/-- The task moved to the state that requests ask for, if they ask for one. -/
def Requests.move (r : Requests) (t : Task) : Task :=
  r.newState.elim t (Migration.moveTo t)

theorem Requests.counts_move (r : Requests) (t : Task) : (r.move t).counts = t.counts := by
  unfold move
  cases r.newState <;> rfl

/-- Every state that requests name is known: the one to move to is `finish` or has a block, and
those with counts to forget have blocks. -/
structure Requests.Known (r : Requests) (table : Table) : Prop where
  newState : ∀ state, r.newState = some state → table.isKnown state = true
  resetStates : ∀ state ∈ r.resetStates, table.hasBlock state = true
  resetCounts : ∀ choice ∈ r.resetCounts, table.hasBlock choice.1 = true

/-- Requests name no unknown state if they ask for a restart, or if each state is known. -/
theorem Requests.unknown?_eq_none_iff {r : Requests} {table : Table} :
    r.unknown? table = none ↔ r.restart = true ∨ r.Known table := by
  unfold unknown?
  split
  · next hrestart => simp [hrestart]
  · next hrestart =>
    have hblocks : (∀ state ∈ r.resetStates ++ r.resetCounts.map (·.1),
        ¬ (table.block? state).isNone = true) ↔
        (∀ state ∈ r.resetStates, table.hasBlock state = true) ∧
          ∀ choice ∈ r.resetCounts, table.hasBlock choice.1 = true := by
      simp only [List.forall_mem_append, List.forall_mem_map, Table.hasBlock, Bool.not_eq_true,
        Option.isNone_eq_false_iff]
    have hnew : r.newState.filter (fun state => !table.isKnown state) = none ↔
        ∀ state, r.newState = some state → table.isKnown state = true := by
      simp [Option.filter_eq_none_iff]
    rw [Option.orElse_eq_none, List.find?_eq_none, hblocks, hnew]
    constructor
    · rintro ⟨hstate, hstates, hcounts⟩
      exact .inr ⟨hstate, hstates, hcounts⟩
    · rintro (hrestart' | hknown)
      · exact absurd hrestart' hrestart
      · exact ⟨hknown.newState, hknown.resetStates, hknown.resetCounts⟩

namespace Migration

variable {table : Table} {t t' : Task} {line : Nat}

theorem get?_erase_transitions (transitions : List Transition) (counts : SortedMap Nat Nat) :
    (transitions.foldl (fun m tr => m.erase tr.line) counts).get? line =
      if transitions.any (·.line == line) then none else counts.get? line := by
  induction transitions generalizing counts with
  | nil => rfl
  | cons tr rest ih =>
    rw [List.foldl_cons, ih, SortedMap.get?_erase, List.any_cons]
    by_cases hline : tr.line = line
    · simp [hline]
    · simp [hline, Ne.symm hline]

theorem counts_clearStateCounts {state : String} (h : t.clearStateCounts table state = .ok t') :
    t'.counts.get? line = if table.isLeftOn line state then none else t.counts.get? line := by
  unfold Task.clearStateCounts Table.block at h
  unfold Table.isLeftOn
  cases hblock : table.block? state with
  | none =>
    rw [hblock] at h
    cases h
  | some b =>
    rw [hblock] at h
    cases h
    exact get?_erase_transitions b.transitions t.counts

theorem counts_clearCount {state value : String} {found : Bool}
    (h : t.clearCount table state value = .ok (t', found)) :
    t'.counts.get? line =
      if table.isTakenOn line (state, value) then none else t.counts.get? line := by
  unfold Task.clearCount Table.block at h
  unfold Table.isTakenOn
  cases hblock : table.block? state with
  | none =>
    rw [hblock] at h
    cases h
  | some b =>
    rw [hblock] at h
    dsimp only [bind, Except.bind, pure, Except.pure] at h ⊢
    rw [Option.any_some]
    cases htaken : b.transition? value <|> b.transition? Names.wildcard with
    | none =>
      rw [htaken] at h
      cases h
      rfl
    | some tr =>
      rw [htaken] at h
      cases h
      rw [SortedMap.get?_erase, Option.any_some]
      simp only [beq_iff_eq, eq_comm (a := line)]

/-- A count that is forgotten, and one that is forgotten after it. -/
private theorem forgotten_twice {p q : Bool} (count : Option Nat) :
    (if q = true then none else if p = true then none else count) =
      if (p || q) = true then none else count := by
  cases p <;> cases q <;> rfl

theorem counts_resetStates {states : List String}
    (h : (resetStates table states t).2 = none) :
    (resetStates table states t).1.counts.get? line =
      if states.any (table.isLeftOn line) then none else t.counts.get? line := by
  induction states generalizing t with
  | nil => rfl
  | cons state rest ih =>
    rw [resetStates] at h ⊢
    cases hclear : t.clearStateCounts table state with
    | error e =>
      rw [hclear] at h
      cases h
    | ok t' =>
      rw [hclear] at h
      dsimp only at h ⊢
      rw [ih h, counts_clearStateCounts hclear, forgotten_twice, List.any_cons]

theorem counts_resetCounts {choices : List (String × String)}
    (h : (resetCounts table choices t).2 = none) :
    (resetCounts table choices t).1.counts.get? line =
      if choices.any (table.isTakenOn line) then none else t.counts.get? line := by
  induction choices generalizing t with
  | nil => rfl
  | cons choice rest ih =>
    obtain ⟨state, value⟩ := choice
    rw [resetCounts] at h ⊢
    cases hclear : t.clearCount table state value with
    | error e =>
      rw [hclear] at h
      cases h
    | ok cleared =>
      obtain ⟨t', found⟩ := cleared
      rw [hclear] at h
      dsimp only at h ⊢
      rw [ih h, counts_clearCount hclear, forgotten_twice, List.any_cons]

/-- Counts are forgotten in the end if some request asks for it, in whatever order they are gone
through. -/
theorem counts_resets {r : Requests} (h : (apply.resets table r t).2 = none) :
    (apply.resets table r t).1.counts.get? line =
      if r.forgets table line then none else t.counts.get? line := by
  unfold apply.resets at h ⊢
  have hcleared : (if r.resetAll then { t with counts := .empty } else t).counts.get? line =
      if r.resetAll then none else t.counts.get? line := by
    cases r.resetAll <;> rfl
  generalize (if r.resetAll then { t with counts := .empty } else t) = cleared at h hcleared ⊢
  have hstates := @counts_resetStates table cleared line r.resetStates
  dsimp only at h ⊢
  generalize resetStates table r.resetStates cleared = reset at h hstates ⊢
  obtain ⟨t', _ | e⟩ := reset
  · rw [counts_resetCounts h, hstates rfl, hcleared, forgotten_twice, forgotten_twice,
      Requests.forgets, Bool.or_assoc]
  · cases h

/-- Requests that are met, short of a restart, move the task if they ask for it, and the counts that
they ask to be forgotten are gone. -/
theorem apply_met {r : Requests} (hrestart : r.restart = false) (hknown : r.Known table) :
    ∃ counts, (apply table t r).1 = { r.move t with counts } ∧
      ∀ line, counts.get? line = if r.forgets table line then none else t.counts.get? line := by
  have hmet : (apply table t r).2 = none := by
    rw [apply_error, Requests.unknown?_eq_none_iff.2 (.inr hknown), Option.map_none]
  have happly : apply table t r = apply.resets table r (r.move t) := by
    rw [apply, hrestart, if_neg Bool.false_ne_true, Requests.move]
    cases hstate : r.newState with
    | none => rfl
    | some state =>
      dsimp only
      rw [if_pos (hknown.newState state hstate)]
      rfl
  rw [happly] at hmet ⊢
  obtain ⟨counts, heq⟩ := resets_eq table r (r.move t)
  refine ⟨counts, heq, fun line => ?_⟩
  have hcounts := @counts_resets table (r.move t) line r hmet
  rw [heq, r.counts_move] at hcounts
  exact hcounts

/-! ## Refused requests -/

variable {σ τ : Type} {h : Handler σ}

/-- Running hooks comes to one result only. -/
theorem Ran.functional {hooks : List Hook} {m m₁ m₂ : σ} {current : Option String}
    {calls₁ calls₂ : List (String × Option String)} {result₁ result₂ : Except Error (Option String)}
    (hran : Ran h table hooks m current calls₁ m₁ result₁)
    (hran' : Ran h table hooks m current calls₂ m₂ result₂) : result₁ = result₂ := by
  induction hran generalizing calls₂ m₂ with
  | done =>
    cases hran'
    rfl
  | missing absent =>
    cases hran' with
    | missing => rfl
    | failed answered | rejected answered | met answered => cases absent.symm.trans answered
  | failed failed =>
    cases hran' with
    | failed answered =>
      cases failed.symm.trans answered
      rfl
    | missing answered | rejected answered | met answered => cases failed.symm.trans answered
  | rejected answered unknown =>
    cases hran' with
    | rejected answered' unknown' =>
      cases answered.symm.trans answered'
      cases unknown.symm.trans unknown'
      rfl
    | met answered' known =>
      cases answered.symm.trans answered'
      cases unknown.symm.trans known
    | missing answered' | failed answered' => cases answered.symm.trans answered'
  | met answered known _ ih =>
    cases hran' with
    | met answered' _ further =>
      cases answered.symm.trans answered'
      exact ih further
    | rejected answered' unknown =>
      cases answered.symm.trans answered'
      cases known.symm.trans unknown
    | missing answered' | failed answered' => cases answered.symm.trans answered'

/-- A hook whose requests are refused fails the build that it ran for. -/
theorem build_refused {u : Setup σ τ} {start state : String} {before rest : List Hook} {k : Hook}
    {m m' : σ} {calls : List (String × Option String)} {current : Option String} {r : Requests}
    (hstored : u.stored = some t) (hstart : u.table.startState = .ok start)
    (hplan : plan t.versions u.handler.versions.entries = before ++ k :: rest)
    (hran : Ran u.handler u.table before u.memory t.current calls m (.ok current))
    (hanswer : u.handler.update m k.name current u.table = (m', some (.ok r)))
    (hunknown : r.unknown? u.table = some state) (now : Instant) :
    (u.build now).2 = .error (.migration (.rejected (.missingBlock state))) := by
  have hrefused : Ran u.handler u.table (before ++ k :: rest) u.memory t.current
      (calls ++ [(k.name, current)]) m' (.error (.rejected (.missingBlock state))) :=
    hran.append (.rejected hanswer hunknown)
  obtain ⟨calls', hperformed, -⟩ := migrate_performs u.handler u.table
    (distinct_entries u.handler.versions) u.memory t []
  rw [hplan] at hperformed
  have hresult := hperformed.functional hrefused
  rw [Setup.build_eq_migrate hstored hstart]
  generalize migrate u.handler u.table u.handler.versions.entries u.memory t = outcome at hresult ⊢
  obtain ⟨m₁, e | t₁⟩ := outcome
  · cases hresult
    rfl
  · cases hresult

/-- Requests are met exactly if they ask for a restart or every state that they name is known. A
restart makes up for everything else that is asked for; short of it the task moves, and exactly the
counts that are asked for are forgotten. Requests that are not met are refused for the first unknown
state: the one to move to, else one of the states and then of the transitions with counts to forget.
No task is handed out by the build that they were made for. -/
theorem requests_met_or_refused (table : Table) (t : Task) (r : Requests) :
    ((apply table t r).2 = none ↔ r.restart = true ∨ r.Known table) ∧
    (r.restart = true → (apply table t r).1 = restart t) ∧
    (r.restart = false → r.Known table →
      ∃ counts, (apply table t r).1 = { r.move t with counts } ∧
        ∀ line, counts.get? line = if r.forgets table line then none else t.counts.get? line) ∧
    (apply table t r).2 = (r.unknown? table).map .missingBlock ∧
    ∀ {σ τ : Type} (u : Setup σ τ) (stored : Task) (before rest : List Hook) (k : Hook)
      (calls : List (String × Option String)) (m m' : σ) (start state : String),
      u.table = table → u.stored = some stored → table.startState = .ok start →
      plan stored.versions u.handler.versions.entries = before ++ k :: rest →
      Ran u.handler table before u.memory stored.current calls m (.ok t.current) →
      u.handler.update m k.name t.current table = (m', some (.ok r)) →
      r.unknown? table = some state →
      ∀ now, (u.build now).2 = .error (.migration (.rejected (.missingBlock state))) := by
  refine ⟨?_, fun hrestart => ?_, apply_met, apply_error table t r, ?_⟩
  · rw [apply_error, Option.map_eq_none_iff, Requests.unknown?_eq_none_iff]
  · rw [apply, if_pos hrestart]
  · rintro σ τ u stored before rest k calls m m' start state rfl hstored hstart hplan hran hanswer
      hunknown now
    exact build_refused hstored hstart hplan hran hanswer hunknown now

/-- A task of `pollTable` that has not started. -/
def waitingTask : Task :=
  { Task.create "poll" "" ⟨0, 0⟩ with versions := .ofList [("jobs", 1)] }

/-- A task of `pollTable` with a count that is left from an older table. -/
def polledTask : Task :=
  { waitingTask with
    phase := .running
    current := some "poll"
    counts := .ofList [(2, 1), (7, 4)] }

/-- Hooks that move a task to `poll` first, and then ask for a state that is not there. -/
def strayHooks : Setup Unit ScriptedSupply where
  table := Session.pollTable
  handler :=
    { Handler.none with
      versions := .ofList [("jobs", 3)]
      update := fun m hook _ _ =>
        if hook = "updateJobs2" then (m, some (.ok { newState := some "poll" }))
        else (m, some (.ok { resetAll := true, resetStates := ["poll", "polls"] })) }
  memory := ()
  taskId := "poll"
  stored := some waitingTask

/-- A task that is moved and has one count forgotten, one that is restarted, and hooks the second of
which is refused. -/
theorem requests_met_or_refused_strayHooks :
    (∃ counts, (apply Session.pollTable polledTask
        { newState := some "finish", resetCounts := [("poll", "again"), ("poll", "never")] }).1 =
          { polledTask with current := some "finish", counts } ∧
        counts.get? 2 = none ∧ counts.get? 7 = some 4) ∧
    (apply Session.pollTable polledTask { restart := true, newState := some "polls" }).1 =
      restart polledTask ∧
    (strayHooks.build ⟨1, 0⟩).2 = .error (.migration (.rejected (.missingBlock "polls"))) := by
  let moved : Requests :=
    { newState := some "finish", resetCounts := [("poll", "again"), ("poll", "never")] }
  have hknown : moved.Known Session.pollTable := by
    refine ⟨?_, nofun, ?_⟩
    · rintro state ⟨⟩
      rfl
    · intro choice hchoice
      rcases List.mem_pair.1 hchoice with rfl | rfl <;> rfl
  obtain ⟨-, -, hmet, -, -⟩ := requests_met_or_refused Session.pollTable polledTask moved
  obtain ⟨counts, heq, hcounts⟩ := hmet rfl hknown
  obtain ⟨-, hrestart, -, -, -⟩ := requests_met_or_refused Session.pollTable polledTask
    { restart := true, newState := some "polls" }
  obtain ⟨-, -, -, -, hrefused⟩ := requests_met_or_refused Session.pollTable
    { waitingTask with current := some "poll" }
    { resetAll := true, resetStates := ["poll", "polls"] }
  have hran : Ran strayHooks.handler Session.pollTable [⟨"jobs", 2⟩] () none
      [("updateJobs2", none)] () (.ok (some "poll")) :=
    .met (r := { newState := some "poll" }) rfl rfl (.done () (some "poll"))
  refine ⟨⟨counts, heq, hcounts 2, hcounts 7⟩, hrestart rfl, ?_⟩
  exact hrefused strayHooks waitingTask [⟨"jobs", 2⟩] [] ⟨"jobs", 3⟩ _ () () "poll" "polls" rfl rfl
    rfl rfl hran rfl rfl ⟨1, 0⟩

/-- More than the state and the counts can change, and less than everything can be undone: a task
that has not started counts as running once it is moved, and a task that was moved stays so when a
later request is refused. -/
theorem moved_task_runs :
    (apply Session.pollTable waitingTask { newState := some "poll" }).2 = none ∧
    (apply Session.pollTable waitingTask { newState := some "poll" }).1 ≠
      { waitingTask with current := some "poll" } ∧
    (apply Session.pollTable waitingTask
      { newState := some "poll", resetStates := ["polls"] }).2 = some (.missingBlock "polls") ∧
    (apply Session.pollTable waitingTask
      { newState := some "poll", resetStates := ["polls"] }).1 ≠ waitingTask := by
  refine ⟨rfl, fun heq => ?_, rfl, fun heq => ?_⟩
  · cases congrArg Task.phase heq
  · cases congrArg Task.phase heq

end Migration
end TaskTable
