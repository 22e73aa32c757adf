import TaskTable.Session.Step

/-!
# Runs

Steps in a row until the task has ended, a step fails, or a number of steps is reached. Where the
waits are honoured, the clock moves on by each of them.
-/

namespace TaskTable

/-- How a run ended. -/
structure RunSummary where
  /-- The number of steps made. -/
  steps : Nat
  /-- The result of the last step. -/
  last : StepResult
  /-- Whether the run stopped before the task had ended. -/
  reachedLimit : Bool
  /-- The seconds waited between steps. -/
  waited : Nat
  deriving DecidableEq, Repr

/-- A step that failed in a run. -/
structure RunFailure where
  /-- The number of the step, from 1. -/
  step : Nat
  task : String
  fault : Fault
  deriving DecidableEq, Repr

namespace Session

variable {σ τ : Type} [Supply τ]

/-- At most `left` more steps of a run that stands at `so`. -/
def runFrom (honorWaits : Bool) :
    (left : Nat) → (so : RunSummary) → Instant → Session σ τ →
      Session σ τ × Except RunFailure RunSummary
  | 0, so, _, s => (s, .ok { so with reachedLimit := true })
  | left + 1, so, now, s =>
    match s.step now with
    | (s, .error fault) => (s, .error ⟨so.steps + 1, s.task.id, fault⟩)
    | (s, .ok last) =>
      let so := { so with steps := so.steps + 1, last }
      if last.complete then (s, .ok so)
      else if honorWaits then
        runFrom honorWaits left { so with waited := so.waited + last.wait }
          (now.addSeconds last.wait) s
      else runFrom honorWaits left so now s

/-- At most `maxSteps` steps. -/
def run (s : Session σ τ) (maxSteps : Nat) (honorWaits : Bool) (now : Instant) :
    Session σ τ × Except RunFailure RunSummary :=
  s.runFrom honorWaits maxSteps ⟨0, .running 0, false, 0⟩ now

end Session

/-! ## The chain of causes -/

/-- The wordings of an error in a text and of its causes. -/
def SourceError.chain (e : SourceError) : List String :=
  match e with
  | .rejected _ cause => [e.message, cause.message]
  | _ => [e.message]

/-- The wordings of a supply's error and of its causes. -/
def SupplyError.chain (e : SupplyError) : List String :=
  match e with
  | .unreadable e => e.chain
  | _ => [e.message]

/-- The wordings of a fault and of its causes. -/
def Fault.chain (f : Fault) : List String :=
  match f with
  | .supply cause => f.message :: cause.chain
  | _ => [f.message]

/-- The wordings of a failed run and of its causes. -/
def RunFailure.chain (e : RunFailure) : List String :=
  ("step " ++ toString e.step ++ " of task " ++ e.task ++ " failed") :: e.fault.chain

end TaskTable
