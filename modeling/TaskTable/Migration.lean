import TaskTable.Handler
import TaskTable.Text.Capital

/-!
# Migration

Bringing a stored task up to the versions that the code is for. For each component whose stored
version is older, a hook runs for every version in between, and what it asks for is done before the
next hook runs.
-/

namespace TaskTable
namespace Migration

/-- The name of the hook that brings a component to a version. -/
def hookName (component : String) (version : Nat) : String :=
  "update" ++ Text.capitalize component ++ toString version

/-! ## Requests -/

/-- The task started over. What it did so far and the versions of its data stay. -/
def restart (t : Task) : Task :=
  { t with
    phase := .notStarted
    current := none
    counts := .empty
    contexts := .empty
    exit := none }

/-- The task moved to a state. A task that has not started then counts as running. -/
def moveTo (t : Task) (state : String) : Task :=
  { t with
    current := some state
    phase := if t.phase = .notStarted then .running else t.phase }

/-- The task without the counts of some states, and the first of these that has no block. What was
forgotten before that stays forgotten. -/
def resetStates (table : Table) : List String → Task → Task × Option TableError
  | [], t => (t, none)
  | state :: rest, t =>
    match t.clearStateCounts table state with
    | .ok t => resetStates table rest t
    | .error e => (t, some e)

/-- The task without the counts of some transitions, and the first of their states that has no
block. What was forgotten before that stays forgotten. -/
def resetCounts (table : Table) : List (String × String) → Task → Task × Option TableError
  | [], t => (t, none)
  | (state, value) :: rest, t =>
    match t.clearCount table state value with
    | .ok (t, _) => resetCounts table rest t
    | .error e => (t, some e)

/-- The task as the requests leave it, and the first request that names an unknown state. The
requests are met one after the other, up to that one. -/
def apply (table : Table) (t : Task) (r : Requests) : Task × Option TableError :=
  if r.restart then (restart t, none)
  else
    match r.newState with
    | some state =>
      if table.isKnown state then resets (moveTo t state) else (t, some (.missingBlock state))
    | none => resets t
where
  /-- The part of the requests that is about counts. -/
  resets (t : Task) : Task × Option TableError :=
    let t := if r.resetAll then { t with counts := .empty } else t
    match resetStates table r.resetStates t with
    | (t, none) => resetCounts table r.resetCounts t
    | failed => failed

/-! ## Hooks -/

/-- Why a task could not be brought up to date. -/
inductive Error
  | missingHook (hook : String)
  | hookFailed (hook message : String)
  | rejected (cause : TableError)
  deriving DecidableEq, Repr

/-- The wording of an error. -/
def Error.message : Error → String
  | missingHook hook => "update hook '" ++ hook ++ "' is not defined"
  | hookFailed hook message => "update hook '" ++ hook ++ "' failed: " ++ message
  | rejected cause => cause.message

variable {σ : Type}

/-- The hooks of a component run for a number of versions, one after the other from the given one
on. The version is set down after each of them. -/
def runHooks (h : Handler σ) (table : Table) (component : String) :
    (count version : Nat) → σ → Task → σ × Except Error Task
  | 0, _, m, t => (m, .ok t)
  | count + 1, version, m, t =>
    let hook := hookName component version
    match h.update m hook t.current table with
    | (m, none) => (m, .error (.missingHook hook))
    | (m, some (.error message)) => (m, .error (.hookFailed hook message))
    | (m, some (.ok requests)) =>
      match apply table t requests with
      | (_, some e) => (m, .error (.rejected e))
      | (t, none) =>
        runHooks h table component count (version + 1) m
          { t with versions := t.versions.insert component version }

/-- How many versions a component still has to be brought to: those from the one after the stored
version up to that of the code. The version after the last one that 32 bits hold is 0, so a
component that is there has all of them to go through again. -/
def pendingCount (stored code : Nat) : Nat :=
  if code < stored then 0 else code + 1 - Number.next32 stored

/-- The given components brought to the given versions. A component that was not there is taken over
as it is, and one that is newer than the code is left alone. -/
def migrate (h : Handler σ) (table : Table) :
    List (String × Nat) → σ → Task → σ × Except Error Task
  | [], m, t => (m, .ok t)
  | (component, code) :: rest, m, t =>
    match t.versions.get? component with
    | none => migrate h table rest m { t with versions := t.versions.insert component code }
    | some stored =>
      match runHooks h table component (pendingCount stored code) (Number.next32 stored) m t with
      | (m, .ok t) => migrate h table rest m t
      | failed => failed

end Migration
end TaskTable
