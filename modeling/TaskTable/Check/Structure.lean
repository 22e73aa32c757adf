import TaskTable.Check.Issue
import TaskTable.Table.Basic

/-!
# Checks of a table by itself

The states that errors and terminations are routed to must have blocks, every target must be
`finish` or have a block, every state must have a path to `finish`, and no transition should lead
straight back into its own state.
-/

namespace TaskTable
namespace Check

/-! ## Required states -/

/-- The states that every table needs. -/
def requiredStates : List String :=
  [Names.failure, Names.terminate]

/-- The name of the rule that finds missing required states. -/
def requiredStatesId : String := "required-states"

/-- The required states without a block. -/
def requiredStateIssues (t : Table) : List Issue :=
  (requiredStates.filter fun s => !t.hasBlock s).map fun s =>
    { kind := .missingBlock
      severity := .error
      state := s
      value := none
      line := none
      message := "required state '" ++ s ++ "' has no transition block"
      rule := requiredStatesId }

/-! ## Targets and paths -/

/-- The name of the rule about targets and paths. -/
def reachabilityId : String := "reachability"

/-- Every transition of a table with its block, in the order of declaration. -/
def edges (t : Table) : List (Block × Transition) :=
  t.blocks.flatMap fun b => b.transitions.map fun tr => (b, tr)

/-- The first edge to each target that is in `wanted` and not in `seen`. -/
def firstEdges (wanted : String → Bool) : (seen : List String) → List (Block × Transition) →
    List (Block × Transition)
  | _, [] => []
  | seen, e :: rest =>
    if !wanted e.2.target || seen.contains e.2.target then firstEdges wanted seen rest
    else e :: firstEdges wanted (e.2.target :: seen) rest

/-- The targets without a block, each at the first transition that leads to it. Required states are
left to their own rule. -/
def danglingTargetIssues (t : Table) : List Issue :=
  (firstEdges (fun s => !t.isKnown s) requiredStates (edges t)).map fun (b, tr) =>
    { kind := .missingBlock
      severity := .error
      state := tr.target
      value := some tr.value
      line := some tr.line
      message :=
        "state '" ++ tr.target ++ "' (target of '" ++ b.state ++ "' on line " ++ toString tr.line
          ++ ") has no transition block"
      rule := reachabilityId }

/-- The states with a transition to `target`. -/
def sourcesOf (t : Table) (target : String) : List String :=
  (t.blocks.filter fun b => b.transitions.any fun tr => tr.target == target).map (·.state)

/-- The states found by walking edges backwards. Those in `pending` have been found and their
sources have not been looked at; at most `fuel` states are looked at. -/
def walkBack (t : Table) : (fuel : Nat) → (pending reached : List String) → List String
  | 0, _, reached => reached
  | _ + 1, [], reached => reached
  | fuel + 1, s :: pending, reached =>
    let found := ((sourcesOf t s).filter fun s => !reached.contains s).eraseDups
    walkBack t fuel (pending ++ found) (reached ++ found)

/-- The states from which some path leads to `finish`, and `finish` itself. Every state is looked at
once, so one look for each block and one for `finish` are enough. -/
def reachingFinish (t : Table) : List String :=
  walkBack t (t.blocks.length + 1) [Names.finish] [Names.finish]

/-- The states without a path to `finish`. -/
def pathIssues (t : Table) : List Issue :=
  let reaching := reachingFinish t
  (t.blocks.filter fun b => !reaching.contains b.state).map fun b =>
    { kind := .noPathToFinish
      severity := .error
      state := b.state
      value := none
      line := some b.line
      message := "no path from '" ++ b.state ++ "' leads to finish"
      rule := reachabilityId }

/-- The issues with targets and paths. -/
def reachabilityIssues (t : Table) : List Issue :=
  danglingTargetIssues t ++ pathIssues t

/-! ## Spins -/

/-- The name of the rule that finds spins. -/
def spinId : String := "spin-transition"

/-- The transitions that lead straight back into their state. -/
def spinIssues (t : Table) : List Issue :=
  ((edges t).filter fun (b, tr) => tr.isSpin b.state).map fun (b, tr) =>
    { kind := .spinTransition
      severity := .warning
      state := b.state
      value := some tr.value
      line := some tr.line
      message := "'" ++ b.state ++ "' on value '" ++ tr.value ++ "' re-enters itself without a wait"
      rule := spinId }

end Check
end TaskTable
