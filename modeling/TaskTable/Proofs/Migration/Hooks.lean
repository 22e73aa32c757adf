import TaskTable.Proofs.Migration
import TaskTable.Proofs.Session.Limits
import TaskTable.Proofs.Session.Logged

/-!
# Which hooks run

A migration runs the hooks that a stored task is behind by, and no other: those of each component in
the order of their versions, one component after another. `plan` lists them, and `Ran` says what
running them comes to: each sees the state that the task is in by then, and the first one that
cannot be gone along with is the last one.
-/

namespace TaskTable

/-! ## What requests come to -/

namespace Requests

/-- The state that a task is in once requests are met, given the state before. -/
def leadTo (r : Requests) (current : Option String) : Option String :=
  if r.restart then none else r.newState <|> current

/-- The first state that requests name and a table does not know. A task that starts over names
none. -/
def unknown? (r : Requests) (table : Table) : Option String :=
  if r.restart then none
  else
    (r.newState.filter fun state => !table.isKnown state) <|>
      (r.resetStates ++ r.resetCounts.map (·.1)).find? fun state => (table.block? state).isNone

end Requests

namespace Migration

theorem resetStates_error (table : Table) (states : List String) (t : Task) :
    (resetStates table states t).2 =
      (states.find? fun state => (table.block? state).isNone).map .missingBlock := by
  induction states generalizing t with
  | nil => rfl
  | cons state rest ih =>
    rw [resetStates, Task.clearStateCounts, Table.block, List.find?_cons]
    cases table.block? state with
    | none => rfl
    | some b => exact ih _

theorem resetCounts_error (table : Table) (counts : List (String × String)) (t : Task) :
    (resetCounts table counts t).2 =
      ((counts.map (·.1)).find? fun state => (table.block? state).isNone).map .missingBlock := by
  induction counts generalizing t with
  | nil => rfl
  | cons e rest ih =>
    obtain ⟨state, value⟩ := e
    rw [resetCounts, Task.clearCount, Table.block, List.map_cons, List.find?_cons]
    cases table.block? state with
    | none => rfl
    | some b =>
      dsimp only [bind, Except.bind, pure, Except.pure]
      cases b.transition? value <|> b.transition? Names.wildcard with
      | none => exact ih _
      | some transition => exact ih _

theorem resets_error (table : Table) (r : Requests) (t : Task) :
    (apply.resets table r t).2 =
      ((r.resetStates ++ r.resetCounts.map (·.1)).find?
        fun state => (table.block? state).isNone).map .missingBlock := by
  unfold apply.resets
  generalize (if r.resetAll then { t with counts := .empty } else t) = cleared
  have hstates := resetStates_error table r.resetStates cleared
  rw [List.find?_append]
  dsimp only
  generalize resetStates table r.resetStates cleared = reset at hstates ⊢
  obtain ⟨t', _ | e⟩ := reset
  · -- all states of the first list are known
    rw [Option.map_eq_none_iff.1 hstates.symm]
    exact resetCounts_error table r.resetCounts t'
  · obtain ⟨state, hstate, rfl⟩ := Option.map_eq_some_iff.1 hstates.symm
    rw [hstate]
    rfl

/-- Requests are turned down for the first unknown state that they name. -/
theorem apply_error (table : Table) (t : Task) (r : Requests) :
    (apply table t r).2 = (r.unknown? table).map .missingBlock := by
  unfold apply Requests.unknown?
  split
  · rfl
  · cases r.newState with
    | none => exact resets_error table r t
    | some state =>
      dsimp only
      cases hknown : table.isKnown state with
      | true => simpa [hknown, Option.filter] using resets_error table r (moveTo t state)
      | false => simp [hknown, Option.filter]

/-- Requests that are met lead the task to the state that they ask for. -/
theorem current_apply {table : Table} {t : Task} {r : Requests}
    (h : (apply table t r).2 = none) : (apply table t r).1.current = r.leadTo t.current := by
  have hresets : ∀ t : Task, (apply.resets table r t).1.current = t.current := by
    intro t
    obtain ⟨counts, heq⟩ := resets_eq table r t
    rw [heq]
  unfold apply Requests.leadTo at *
  split
  · rfl
  · next hrestart =>
    rw [if_neg hrestart] at h
    cases hstate : r.newState with
    | none =>
      exact hresets t
    | some state =>
      rw [hstate] at h
      dsimp only at h ⊢
      split
      · exact hresets _
      · next hknown =>
        rw [if_neg hknown] at h
        cases h

/-! ## Running hooks -/

/-- A hook, which brings the data of a component to a version. -/
structure Hook where
  component : String
  version : Nat
  deriving DecidableEq, Repr

def Hook.name (k : Hook) : String :=
  hookName k.component k.version

/-- The hooks that stored data is behind by: for each component that was stored, those for the
versions beyond the stored one. -/
def plan (stored : SortedMap String Nat) (code : List (String × Nat)) : List Hook :=
  code.flatMap fun e =>
    match stored.get? e.1 with
    | none => []
    | some version => (pendingVersions version e.2).map (⟨e.1, ·⟩)

/-- A hook belongs before another one: to a component that comes first, or to an older version. -/
def Hook.Before (k l : Hook) : Prop :=
  k.component < l.component ∨ k.component = l.component ∧ k.version < l.version

theorem mem_pendingVersions {stored code version : Nat} (hstored : stored < lastVersion) :
    version ∈ pendingVersions stored code ↔ stored < version ∧ version ≤ code := by
  rw [pendingVersions, pendingCount, next32_of_lt hstored, List.mem_range'_1]
  split <;> omega

/-- The hooks planned are those for the versions that are pending. -/
theorem mem_plan_iff_pending {stored code : SortedMap String Nat} {k : Hook} :
    k ∈ plan stored code.entries ↔ ∃ old new, stored.get? k.component = some old ∧
      code.get? k.component = some new ∧ k.version ∈ pendingVersions old new := by
  rw [plan, List.mem_flatMap]
  constructor
  · rintro ⟨⟨component, new⟩, he, hk⟩
    cases hold : stored.get? component with
    | none =>
      rw [hold] at hk
      cases hk
    | some old =>
      rw [hold] at hk
      obtain ⟨version, hversion, rfl⟩ := List.mem_map.1 hk
      exact ⟨old, new, hold, SortedMap.get?_of_mem he, hversion⟩
  · rintro ⟨old, new, hold, hnew, hversion⟩
    refine ⟨(k.component, new), SortedMap.mem_of_get? hnew, ?_⟩
    dsimp only
    rw [hold]
    exact List.mem_map.2 ⟨k.version, hversion, rfl⟩

/-- The hooks planned for a component that is not stored at the last version are those between the
version stored and the version of the code. -/
theorem mem_plan {stored code : SortedMap String Nat} {k : Hook}
    (hbelow : ∀ old, stored.get? k.component = some old → old < lastVersion) :
    k ∈ plan stored code.entries ↔ ∃ old new, stored.get? k.component = some old ∧
      code.get? k.component = some new ∧ old < k.version ∧ k.version ≤ new := by
  rw [mem_plan_iff_pending]
  refine exists₂_congr fun old new => and_congr_right fun hold => ?_
  rw [mem_pendingVersions (hbelow old hold)]

/-- Hooks are planned in order, and each of them once. -/
theorem plan_ascending (stored code : SortedMap String Nat) :
    (plan stored code.entries).Pairwise Hook.Before := by
  have hcomponent : ∀ e : String × Nat, ∀ k ∈ (match stored.get? e.1 with
      | none => []
      | some version => (pendingVersions version e.2).map (⟨e.1, ·⟩) : List Hook),
      k.component = e.1 := by
    intro e k hk
    split at hk
    · cases hk
    · obtain ⟨version, -, rfl⟩ := List.mem_map.1 hk
      rfl
  rw [plan, List.pairwise_flatMap]
  constructor
  · intro e _
    split
    · exact .nil
    · rw [List.pairwise_map]
      exact (List.pairwise_lt_range' 1 Nat.one_pos).imp fun hlt => .inr ⟨rfl, hlt⟩
  · refine code.ascending.imp fun {e f} hlt k hk l hl => .inl ?_
    rw [hcomponent e k hk, hcomponent f l hl]
    exact hlt

/-- What running hooks one after another comes to, from a memory of the handler and a state of the
task: which hooks are called, and the state that each of them sees; then the memory, and the state
in the end or the error. -/
inductive Ran {σ : Type} (h : Handler σ) (table : Table) :
    List Hook → σ → Option String → List (String × Option String) → σ →
      Except Error (Option String) → Prop
  | done (m : σ) (current : Option String) : Ran h table [] m current [] m (.ok current)
  | missing {k : Hook} {rest : List Hook} {m m' : σ} {current : Option String}
      (absent : h.update m k.name current table = (m', none)) :
      Ran h table (k :: rest) m current [(k.name, current)] m' (.error (.missingHook k.name))
  | failed {k : Hook} {rest : List Hook} {m m' : σ} {current : Option String} {message : String}
      (failed : h.update m k.name current table = (m', some (.error message))) :
      Ran h table (k :: rest) m current [(k.name, current)] m'
        (.error (.hookFailed k.name message))
  /-- The hook asks for a state that the table does not know. -/
  | rejected {k : Hook} {rest : List Hook} {m m' : σ} {current : Option String} {r : Requests}
      {state : String} (answered : h.update m k.name current table = (m', some (.ok r)))
      (unknown : r.unknown? table = some state) :
      Ran h table (k :: rest) m current [(k.name, current)] m'
        (.error (.rejected (.missingBlock state)))
  /-- What the hook asks for is done, and the next hook sees the state that it led to. -/
  | met {k : Hook} {rest : List Hook} {m m' m'' : σ} {current : Option String} {r : Requests}
      {calls : List (String × Option String)} {result : Except Error (Option String)}
      (answered : h.update m k.name current table = (m', some (.ok r)))
      (known : r.unknown? table = none)
      (further : Ran h table rest m' (r.leadTo current) calls m'' result) :
      Ran h table (k :: rest) m current ((k.name, current) :: calls) m'' result

namespace Ran

variable {σ : Type} {h : Handler σ} {table : Table} {hooks hooks' : List Hook} {m m' m'' : σ}
  {current current' : Option String} {calls calls' : List (String × Option String)}
  {result : Except Error (Option String)}

/-- Hooks that are all gone along with are each called once, in their order. -/
theorem calls_of_ok (hran : Ran h table hooks m current calls m' (.ok current')) :
    calls.map (·.1) = hooks.map Hook.name := by
  generalize hresult : (Except.ok current' : Except Error (Option String)) = result at hran
  induction hran with
  | done => rfl
  | missing | failed | rejected => cases hresult
  | met _ _ _ ih => exact congrArg (_ :: ·) (ih hresult)

/-- An error comes from the hook that is called last. -/
theorem calls_of_error {e : Error} (hran : Ran h table hooks m current calls m' (.error e)) :
    ∃ before k rest, hooks = before ++ k :: rest ∧
      calls.map (·.1) = (before ++ [k]).map Hook.name := by
  generalize hresult : (Except.error e : Except Error (Option String)) = result at hran
  induction hran with
  | done => cases hresult
  | @missing k rest | @failed k rest | @rejected k rest => exact ⟨[], k, rest, rfl, rfl⟩
  | @met k rest _ _ _ _ _ _ _ _ _ _ ih =>
    obtain ⟨before, last, after, rfl, hcalls⟩ := ih hresult
    exact ⟨k :: before, last, after, rfl, congrArg (_ :: ·) hcalls⟩

/-- More hooks run on from where others have led. -/
theorem append (hran : Ran h table hooks m current calls m' (.ok current'))
    (hran' : Ran h table hooks' m' current' calls' m'' result) :
    Ran h table (hooks ++ hooks') m current (calls ++ calls') m'' result := by
  generalize hfirst : (Except.ok current' : Except Error (Option String)) = first at hran
  induction hran with
  | done =>
    cases hfirst
    exact hran'
  | missing | failed | rejected => cases hfirst
  | met answered known _ ih => exact .met answered known (ih hran' hfirst)

/-- No hook runs after an error. -/
theorem append_error {e : Error} (hran : Ran h table hooks m current calls m' (.error e))
    (more : List Hook) : Ran h table (hooks ++ more) m current calls m' (.error e) := by
  generalize hfirst : (Except.error e : Except Error (Option String)) = first at hran ⊢
  induction hran with
  | done => cases hfirst
  | missing absent => exact .missing absent
  | failed failed => exact .failed failed
  | rejected answered unknown => exact .rejected answered unknown
  | met answered known _ ih => exact .met answered known (ih hfirst)

end Ran

/-! ## Migrating -/

section Migrating

variable {σ : Type} {h : Handler σ} {table : Table}

/-- The entries of a log for hooks that were called, each in a state. -/
def logOf (calls : List (String × Option String)) : List Handler.Call :=
  calls.map fun c => .updated c.1 c.2

/-- An outcome is that of running hooks, and the same outcome with a log has them in the log. -/
def Performs (h : Handler σ) (table : Table) (hooks : List Hook) (m : σ) (t : Task)
    (log : List Handler.Call) (o : σ × Except Error Task)
    (o' : Logged σ Handler.Call × Except Error Task) : Prop :=
  ∃ calls, Ran h table hooks m t.current calls o.1 (o.2.map (·.current)) ∧
    o' = (⟨o.1, log ++ logOf calls⟩, o.2)

theorem runHooks_performs (h : Handler σ) (table : Table) (component : String)
    (count version : Nat) (m : σ) (t : Task) (log : List Handler.Call) :
    Performs h table ((List.range' version count).map (⟨component, ·⟩)) m t log
      (runHooks h table component count version m t)
      (runHooks h.logged table component count version ⟨m, log⟩ t) := by
  induction count generalizing version m t log with
  | zero => exact ⟨[], .done m t.current, by rw [logOf, List.map_nil, List.append_nil]; rfl⟩
  | succ count ih =>
    let k : Hook := ⟨component, version⟩
    have hlogged : h.logged.update ⟨m, log⟩ k.name t.current table =
        (⟨(h.update m k.name t.current table).1, log ++ [.updated k.name t.current]⟩,
          (h.update m k.name t.current table).2) := rfl
    simp only [runHooks, List.range'_succ, List.map_cons]
    rw [show hookName component version = k.name from rfl, hlogged]
    cases hupdate : h.update m k.name t.current table with
    | mk m₁ answer =>
      cases answer with
      | none => exact ⟨[(k.name, t.current)], .missing hupdate, rfl⟩
      | some answered =>
        cases answered with
        | error message => exact ⟨[(k.name, t.current)], .failed hupdate, rfl⟩
        | ok r =>
          have herror := apply_error table t r
          have hcurrent : (apply table t r).2 = none →
              (apply table t r).1.current = r.leadTo t.current := current_apply
          dsimp only
          generalize apply table t r = applied at herror hcurrent ⊢
          obtain ⟨t₁, _ | e⟩ := applied
          · -- the next hooks see the state that this one has led to
            have hknown : r.unknown? table = none := Option.map_eq_none_iff.1 herror.symm
            obtain ⟨calls, hran, hlog⟩ := ih (version + 1) m₁ { t₁ with
              versions := t₁.versions.insert component version }
              (log ++ [.updated k.name t.current])
            refine ⟨(k.name, t.current) :: calls, .met hupdate hknown ?_, ?_⟩
            · rw [← hcurrent rfl]
              exact hran
            · refine hlog.trans ?_
              rw [List.append_assoc]
              rfl
          · obtain ⟨state, hunknown, rfl⟩ := Option.map_eq_some_iff.1 herror.symm
            exact ⟨[(k.name, t.current)], .rejected hupdate hunknown, rfl⟩

/-- The plan for some components depends on what is stored of these alone. -/
theorem plan_congr {stored stored' : SortedMap String Nat} {es : List (String × Nat)}
    (hsame : ∀ e ∈ es, stored'.get? e.1 = stored.get? e.1) : plan stored' es = plan stored es :=
  List.flatMap_congr fun e he => by rw [hsame e he]

/-- A migration runs the hooks of its plan. -/
theorem migrate_performs (h : Handler σ) (table : Table) {es : List (String × Nat)}
    (hdistinct : es.Pairwise (·.1 ≠ ·.1)) (m : σ) (t : Task) (log : List Handler.Call) :
    Performs h table (plan t.versions es) m t log (migrate h table es m t)
      (migrate h.logged table es ⟨m, log⟩ t) := by
  induction es generalizing m t log with
  | nil => exact ⟨[], .done m t.current, by rw [logOf, List.map_nil, List.append_nil]; rfl⟩
  | cons e rest ih =>
    obtain ⟨component, code⟩ := e
    obtain ⟨hother, hrest⟩ := List.pairwise_cons.1 hdistinct
    rw [plan, List.flatMap_cons, migrate, migrate]
    dsimp only
    cases hstored : t.versions.get? component with
    | none =>
      -- the component is taken over, which no other component notices
      have hplan : plan (t.versions.insert component code) rest = plan t.versions rest :=
        plan_congr fun e he => SortedMap.get?_insert_of_ne _ (hother e he).symm _
      have hperforms := ih hrest m { t with versions := t.versions.insert component code } log
      rw [hplan] at hperforms
      exact hperforms
    | some stored =>
      dsimp only
      obtain ⟨calls, hran, hlog⟩ := runHooks_performs h table component
        (pendingCount stored code) (Number.next32 stored) m t log
      rw [hlog]
      cases hhooks : runHooks h table component (pendingCount stored code) (Number.next32 stored)
          m t with
      | mk m₁ result =>
        rw [hhooks] at hran
        cases result with
        | error e => exact ⟨calls, hran.append_error _, rfl⟩
        | ok t₁ =>
          -- hooks of one component leave the versions of the others
          have hplan : plan t₁.versions rest = plan t.versions rest :=
            plan_congr fun e he => (runHooks_versions hhooks).2 e.1 (hother e he).symm
          obtain ⟨calls', hran', hlog'⟩ := ih hrest m₁ t₁ (log ++ logOf calls)
          rw [hplan] at hran'
          refine ⟨calls ++ calls', hran.append hran', ?_⟩
          dsimp only
          rw [hlog', List.append_assoc, logOf, logOf, logOf, List.map_append]

/-- What a migration that succeeds makes of the versions: that of each of its components is the
code's, unless a newer one was stored, and no other changes. -/
theorem versions_migrate {es : List (String × Nat)} (hdistinct : es.Pairwise (·.1 ≠ ·.1))
    {m m' : σ} {t t' : Task} (hrun : migrate h table es m t = (m', .ok t')) :
    (∀ e ∈ es, t'.versions.get? e.1 = some (max ((t.versions.get? e.1).getD 0) e.2)) ∧
      ∀ component, (∀ e ∈ es, e.1 ≠ component) →
        t'.versions.get? component = t.versions.get? component := by
  induction es generalizing m t with
  | nil =>
    cases hrun
    exact ⟨nofun, fun _ _ => rfl⟩
  | cons e rest ih =>
    obtain ⟨component, code⟩ := e
    obtain ⟨hother, hrest⟩ := List.pairwise_cons.1 hdistinct
    -- it is enough that the component is brought up first and all others stay
    suffices hfirst : ∃ (m₁ : σ) (t₁ : Task), migrate h table rest m₁ t₁ = (m', .ok t') ∧
        t₁.versions.get? component = some (max ((t.versions.get? component).getD 0) code) ∧
          ∀ other ≠ component, t₁.versions.get? other = t.versions.get? other by
      obtain ⟨m₁, t₁, hlater, hcomponent, hothers⟩ := hfirst
      obtain ⟨hbrought, hkept⟩ := ih hrest hlater
      refine ⟨fun e he => ?_, fun other hne => ?_⟩
      · rcases List.mem_cons.1 he with rfl | he
        · rw [hkept component fun e he => (hother e he).symm, hcomponent]
        · rw [hbrought e he, hothers e.1 (hother e he).symm]
      · rw [hkept other fun e he => hne e (List.mem_cons_of_mem _ he),
          hothers other (hne (component, code) List.mem_cons_self).symm]
    rw [migrate] at hrun
    cases hstored : t.versions.get? component with
    | none =>
      rw [hstored] at hrun
      refine ⟨_, _, hrun, ?_, fun other hne => SortedMap.get?_insert_of_ne _ hne _⟩
      rw [SortedMap.get?_insert_self, Option.getD_none, Nat.zero_max]
    | some stored =>
      rw [hstored] at hrun
      dsimp only at hrun
      split at hrun
      · next m₁ t₁ hhooks =>
        exact ⟨m₁, t₁, hrun, runHooks_pending hstored hhooks, (runHooks_versions hhooks).2⟩
      · next hfailed => exact absurd hrun (hfailed _ _)

end Migrating

end Migration

/-! ## Resuming -/

/-- The versions of a task that was brought up to the code. -/
structure BroughtUp (code stored versions : SortedMap String Nat) : Prop where
  /-- What was older than the code, or was not there, is at the version of the code. -/
  brought : ∀ component version, code.get? component = some version →
    (∀ old, stored.get? component = some old → old ≤ version) →
      versions.get? component = some version
  newer : ∀ component version old, code.get? component = some version →
    stored.get? component = some old → version < old → versions.get? component = some old
  others : ∀ component, code.get? component = none →
    versions.get? component = stored.get? component

namespace Migration

variable {σ : Type} {h : Handler σ} {table : Table}

theorem distinct_entries (versions : SortedMap String Nat) :
    versions.entries.Pairwise (·.1 ≠ ·.1) :=
  versions.ascending.imp fun {e f} hlt (heq : e.1 = f.1) => Std.lt_irrefl (heq ▸ hlt)

theorem broughtUp_migrate {versions : SortedMap String Nat} {m m' : σ} {t t' : Task}
    (hrun : migrate h table versions.entries m t = (m', .ok t')) :
    BroughtUp versions t.versions t'.versions := by
  obtain ⟨hbrought, hkept⟩ := versions_migrate (distinct_entries versions) hrun
  refine ⟨fun component version hcode hle => ?_, fun component version old hcode hold hlt => ?_,
    fun component hcode => ?_⟩
  · rw [hbrought _ (SortedMap.mem_of_get? hcode)]
    -- what was not stored counts as version 0 here, which no code is behind
    cases hold : t.versions.get? component with
    | none => simp
    | some old => simp [hle old hold]
  · rw [hbrought _ (SortedMap.mem_of_get? hcode)]
    simp [hold, Nat.le_of_lt hlt]
  · refine hkept component fun e he heq => ?_
    have hfound := SortedMap.get?_of_mem he
    rw [heq, hcode] at hfound
    cases hfound

end Migration

namespace Setup

open Migration

variable {σ τ : Type} {u : Setup σ τ} {t : Task} {start : String}

theorem build_of_no_start {e : TableError} (hnowhere : u.table.startState = .error e)
    (now : Instant) : u.build now = (u.memory, .error (.table e)) := by
  unfold build
  rewrite [hnowhere]
  rfl

theorem build_eq_migrate (hstored : u.stored = some t) (hstart : u.table.startState = .ok start)
    (now : Instant) :
    u.build now =
      match migrate u.handler u.table u.handler.versions.entries u.memory t with
      | (m, .error e) => (m, .error (.migration e))
      | (m, .ok task) => (m, .ok (u.session m { task with tableHash := u.table.sourceHash })) := by
  unfold build
  rewrite [hstart, hstored]
  rfl

theorem memory_build (hstored : u.stored = some t) (hstart : u.table.startState = .ok start)
    (now : Instant) :
    (u.build now).1 =
      (migrate u.handler u.table u.handler.versions.entries u.memory t).1 := by
  rw [build_eq_migrate hstored hstart]
  split
  · next h => rw [h]
  · next h => rw [h]

/-- A session built for a stored task that is up to the code has the task as it was, and no hook was
called, if no component of the code is at the last version. -/
theorem build_of_isUpTo (hstored : u.stored = some t) (hstart : u.table.startState = .ok start)
    (hup : t.IsUpTo u.handler.versions.entries)
    (hbelow : ∀ e ∈ u.handler.versions.entries, e.2 < lastVersion)
    (hhash : t.tableHash = u.table.sourceHash) (now : Instant) :
    (u.logged.build now).1.log = [] ∧ ∃ s, (u.build now).2 = .ok s ∧ s.task = t := by
  constructor
  · have hlogged : u.logged.memory.log = [] := rfl
    have hup' : t.IsUpTo u.logged.handler.versions.entries := hup
    rw [memory_build (u := u.logged) hstored hstart, migrate_of_isUpTo hup' hbelow, hlogged]
  · rw [build_eq_migrate hstored hstart, migrate_of_isUpTo hup hbelow]
    refine ⟨_, rfl, ?_⟩
    show { t with tableHash := u.table.sourceHash } = t
    rw [← hhash]

/-- A stored task is brought up to the code by the hooks that it is behind by. These are called in
the order of their components' names and of their versions, each once and each in the state that the
hooks before it have led to, up to the first that is missing, fails or asks for an unknown state,
whose error the build then gives. A task that was brought up has the versions of the code where
these are not older. Where the code is below the last version, no hook is called for the task again;
and for what is stored below the last version, the hooks are those beyond the stored version. No
hook is called for a table that has no state to start in. -/
theorem build_runs_plan (hstored : u.stored = some t) (now : Instant) :
    (∀ k, (∀ old, t.versions.get? k.component = some old → old < lastVersion) →
      (k ∈ plan t.versions u.handler.versions.entries ↔
        ∃ old new, t.versions.get? k.component = some old ∧
          u.handler.versions.get? k.component = some new ∧ old < k.version ∧ k.version ≤ new)) ∧
    (plan t.versions u.handler.versions.entries).Pairwise Hook.Before ∧
    (∀ e, u.table.startState = .error e →
      (u.build now).2 = .error (.table e) ∧ (u.logged.build now).1.log = []) ∧
    ∀ start, u.table.startState = .ok start → ∃ calls memory result,
      Ran u.handler u.table (plan t.versions u.handler.versions.entries) u.memory t.current calls
        memory result ∧
      (u.logged.build now).1.log = logOf calls ∧
      (∀ e, result = .error e → (u.build now).2 = .error (.migration e) ∧
        ∃ before k rest, plan t.versions u.handler.versions.entries = before ++ k :: rest ∧
          calls.map (·.1) = (before ++ [k]).map Hook.name) ∧
      ∀ current, result = .ok current → ∃ s, (u.build now).2 = .ok s ∧
        calls.map (·.1) = (plan t.versions u.handler.versions.entries).map Hook.name ∧
        s.task.current = current ∧
        BroughtUp u.handler.versions t.versions s.task.versions ∧
        ((∀ e ∈ u.handler.versions.entries, e.2 < lastVersion) →
          ∀ memory now', ({ u with memory, stored := some s.task }.logged.build now').1.log = [] ∧
            ∃ s', ({ u with memory, stored := some s.task }.build now').2 = .ok s' ∧
              s'.task = s.task) := by
  refine ⟨fun k => mem_plan, plan_ascending _ _, fun e hnowhere => ?_, fun start hstart => ?_⟩
  · exact ⟨congrArg Prod.snd (build_of_no_start hnowhere now),
      congrArg (·.1.log) (build_of_no_start (u := u.logged) hnowhere now)⟩
  obtain ⟨calls, hran, hlog⟩ := migrate_performs u.handler u.table
    (distinct_entries u.handler.versions) u.memory t []
  have hbuild := build_eq_migrate hstored hstart now
  have hlogged : (u.logged.build now).1.log = logOf calls := by
    rw [memory_build (u := u.logged) hstored hstart]
    exact congrArg (fun o => o.1.log) hlog
  cases hmigrate : migrate u.handler u.table u.handler.versions.entries u.memory t with
  | mk memory outcome =>
    rw [hmigrate] at hran hbuild
    refine ⟨calls, memory, _, hran, hlogged, fun e he => ?_, fun current hcurrent => ?_⟩
    · cases outcome with
      | ok t' => cases he
      | error e' =>
        cases he
        exact ⟨congrArg Prod.snd hbuild, hran.calls_of_error⟩
    · cases outcome with
      | error e' => cases hcurrent
      | ok t' =>
        cases hcurrent
        have hbrought : BroughtUp u.handler.versions t.versions t'.versions :=
          broughtUp_migrate hmigrate
        refine ⟨_, congrArg Prod.snd hbuild, hran.calls_of_ok, rfl, hbrought,
          fun hbelow memory' now' => ?_⟩
        exact build_of_isUpTo (t := { t' with tableHash := u.table.sourceHash })
          (u := { u with memory := memory', stored := some _ }) rfl hstart
          (migrate_versions hmigrate).1 hbelow rfl now'

/-- A task of `pollTable` that is two versions behind with one component and ahead with another. The
first hook moves it to `poll`. -/
def pollBehind : Setup Unit ScriptedSupply where
  table := Session.pollTable
  handler :=
    { Handler.none with
      versions := .ofList [("jobs", 3), ("names", 2), ("paths", 4)]
      update := fun m hook _ _ =>
        if hook = "updateJobs2" then (m, some (.ok { newState := some "poll" }))
        else if hook = "updateJobs3" then (m, some (.ok { resetAll := true }))
        else (m, none) }
  memory := ()
  taskId := "poll"
  stored := some { Task.create "poll" "" ⟨0, 0⟩ with
    versions := .ofList [("jobs", 1), ("names", 5), ("users", 7)] }

/-- Both hooks that are missing run, the second in the state that the first has led to. -/
theorem build_runs_plan_pollBehind :
    (pollBehind.logged.build ⟨1, 0⟩).1.log =
        [.updated "updateJobs2" none, .updated "updateJobs3" (some "poll")] ∧
      ∃ s, (pollBehind.build ⟨1, 0⟩).2 = .ok s ∧ s.task.current = some "poll" ∧
        s.task.versions.get? "jobs" = some 3 ∧ s.task.versions.get? "names" = some 5 ∧
        s.task.versions.get? "paths" = some 4 ∧ s.task.versions.get? "users" = some 7 ∧
        ({ pollBehind with stored := some s.task }.logged.build ⟨2, 0⟩).1.log = [] := by
  have hpoll : (pollBehind.build ⟨1, 0⟩).2.toOption.map (·.task.current) = some (some "poll") := rfl
  obtain ⟨-, -, -, hruns⟩ := build_runs_plan (u := pollBehind) rfl ⟨1, 0⟩
  obtain ⟨calls, memory, result, -, -, herror, hok⟩ := hruns "poll" rfl
  cases result with
  | error e =>
    rw [(herror e rfl).1] at hpoll
    cases hpoll
  | ok current =>
    obtain ⟨s, hs, -, -, hbrought, hagain⟩ := hok current rfl
    rw [hs] at hpoll
    refine ⟨rfl, s, hs, Option.some.inj hpoll, hbrought.brought "jobs" 3 rfl ?_,
      hbrought.newer "names" 2 5 rfl rfl (by decide), hbrought.brought "paths" 4 rfl nofun,
      hbrought.others "users" rfl, (hagain (by decide) () ⟨2, 0⟩).1⟩
    rintro old ⟨⟩
    decide

end Setup
end TaskTable
