/-!
# Issues

What a check of a table can find, and how it is reported.
-/

namespace TaskTable
namespace Check

/-- The kinds of issues. -/
inductive Kind
  /-- A state that is needed or referred to has no block. -/
  | missingBlock
  /-- No path leads from the state to `finish`. -/
  | noPathToFinish
  /-- A transition leads straight back into its state. -/
  | spinTransition
  /-- A state has no handler. -/
  | missingStateMethod
  /-- A method has no selector. -/
  | missingTransitionMethod
  /-- The table handles a value that the selector never gives. -/
  | unrecognizedValue
  /-- The selector may give a value that the state does not handle. -/
  | unusedValue
  deriving DecidableEq, Repr

namespace Kind

/-- Every kind, in the order in which kinds are counted. -/
def all : List Kind :=
  [missingBlock, noPathToFinish, spinTransition, missingStateMethod, missingTransitionMethod,
    unrecognizedValue, unusedValue]

/-- The name of a kind. -/
def label : Kind → String
  | missingBlock => "missing block"
  | noPathToFinish => "no path to finish"
  | spinTransition => "spin transition"
  | missingStateMethod => "missing state method"
  | missingTransitionMethod => "missing transition method"
  | unrecognizedValue => "unrecognized value"
  | unusedValue => "unused value"

end Kind

/-- How bad an issue is. -/
inductive Severity
  /-- A task can go wrong. -/
  | error
  /-- Hardly intended. -/
  | warning
  deriving DecidableEq, Repr

/-- The name of a severity. -/
def Severity.name : Severity → String
  | error => "error"
  | warning => "warning"

/-- Something that a check found. -/
structure Issue where
  kind : Kind
  severity : Severity
  /-- The state that the issue is about. -/
  state : String
  /-- The value or method at fault, where there is one. -/
  value : Option String
  line : Option Nat
  message : String
  /-- The rule that found it. -/
  rule : String
  deriving DecidableEq, Repr

namespace Issue

/-- Whether the issue is more than a warning. -/
def isError (i : Issue) : Bool :=
  i.severity == .error

/-- An issue in a report. -/
def text (i : Issue) : String :=
  let place := i.line.elim "" fun n => " at line " ++ toString n
  i.severity.name ++ place ++ ": " ++ i.message ++ " [" ++ i.rule ++ "]"

end Issue

end Check
end TaskTable
