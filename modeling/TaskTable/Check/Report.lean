import TaskTable.Check.Handlers
import TaskTable.Check.Structure

/-!
# Reports

All rules together, and what they find in a table.
-/

namespace TaskTable
namespace Check

/-- A rule: a name, what it asks for, and the issues that it finds. Rules about handlers find
nothing without a catalog. -/
structure Rule where
  id : String
  description : String
  issues : Table → Option Catalog → List Issue

/-- The rules, in the order in which they report. -/
def rules : List Rule :=
  [ { id := requiredStatesId
      description := "failure and terminate must have transition blocks"
      issues := fun t _ => requiredStateIssues t },
    { id := reachabilityId
      description := "Targets must exist and every state must be able to reach finish"
      issues := fun t _ => reachabilityIssues t },
    { id := spinId
      description := "Self-transitions should wait before re-entering the state"
      issues := fun t _ => spinIssues t },
    { id := handlerMethodsId
      description := "State handlers and transition selectors must exist"
      issues := fun t c => c.elim [] (handlerMethodIssues t) },
    { id := transitionValuesId
      description := "Values in the table must match the values selectors declare"
      issues := fun t c => c.elim [] (transitionValueIssues t) } ]

/-- What a check of a table found. -/
structure Report where
  issues : List Issue
  /-- The values that each state handles. -/
  used : SortedMap String TextSet
  /-- The values that each selector may give. -/
  declared : SortedMap String TextSet

/-- The values that each state handles; of two blocks with one name the later one counts. -/
def usedValues (t : Table) : SortedMap String TextSet :=
  .ofList (t.blocks.map fun b => (b.state, TextSet.ofList b.values))

/-- The values that each selector may give. -/
def declaredValues (c : Catalog) : SortedMap String TextSet :=
  c.declared.foldl (fun m d =>
    m.insert d.method ((m.getD d.method .empty).insert d.value ())) .empty

/-- The issues that all rules find. -/
def issues (t : Table) (c : Option Catalog) : List Issue :=
  rules.flatMap fun r => r.issues t c

/-- A table checked against all rules. -/
def run (t : Table) (c : Option Catalog) : Report where
  issues := issues t c
  used := usedValues t
  declared := c.elim .empty declaredValues

namespace Report

/-- The issues of a kind. -/
def ofKind (r : Report) (k : Kind) : List Issue :=
  r.issues.filter fun i => i.kind == k

/-- Whether anything was found. -/
def hasFailures (r : Report) : Bool :=
  !r.issues.isEmpty

/-- Whether more than warnings were found. -/
def hasErrors (r : Report) : Bool :=
  r.issues.any Issue.isError

/-- The report as text: an issue a line. -/
def text (r : Report) : String :=
  if r.issues.isEmpty then "no issues found\n"
  else String.join (r.issues.map fun i => i.text ++ "\n")

end Report

end Check
end TaskTable
