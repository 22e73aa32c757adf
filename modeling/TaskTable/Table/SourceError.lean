import TaskTable.Grammar.Rule
import TaskTable.Table.Error

/-!
# Errors in a text

What can be wrong with the text of a table or script, where it is, and how it is worded.
-/

namespace TaskTable

/-- A fault in the text of a table or script. Lines and columns count from 1. -/
inductive SourceError
  /-- None of the `wanted` rules matches. -/
  | unexpected (line column : Nat) (wanted : List Grammar.Rule)
  /-- A number does not fit into 32 bits. -/
  | numberTooLarge (line column : Nat) (digits : String)
  /-- A block starts before the block of `state` is closed. -/
  | blockStillOpen (line : Nat) (state : String) (openedOn : Nat)
  /-- A block ends where none is open. -/
  | closeWithoutOpen (line : Nat)
  /-- An assignment stands in the block of `state`. -/
  | assignmentInside (line : Nat) (state : String)
  /-- A transition stands outside every block. -/
  | transitionOutside (line : Nat)
  /-- The block of `state`, opened on `line`, is not closed at the end of the text. -/
  | unterminated (line : Nat) (state : String)
  /-- A state or value is declared again. -/
  | rejected (line : Nat) (cause : TableError)
  deriving DecidableEq, Repr

namespace SourceError

/-- The line of a fault. -/
def line : SourceError → Nat
  | unexpected line _ _ | numberTooLarge line _ _ | blockStillOpen line _ _ | closeWithoutOpen line
  | assignmentInside line _ | transitionOutside line | unterminated line _ | rejected line _ => line

/-- The column of a fault, where it has one. -/
def column? : SourceError → Option Nat
  | unexpected _ column _ | numberTooLarge _ column _ => some column
  | _ => none

/-- The wording of a fault, apart from its place. -/
def reason : SourceError → String
  | unexpected _ _ wanted =>
    "expected " ++ Grammar.Rule.choice ((Grammar.Rule.inOrder wanted).map (·.name))
  | numberTooLarge _ _ digits =>
    "invalid number '" ++ digits ++ "': number too large to fit in target type"
  | blockStillOpen _ state openedOn =>
    "block opened while '" ++ state ++ "' (line " ++ toString openedOn ++ ") is still open"
  | closeWithoutOpen _ => "'\x7d' without an open block"
  | assignmentInside _ state =>
    "assignments are only allowed outside blocks (inside '" ++ state ++ "')"
  | transitionOutside _ => "transition outside of a block"
  | unterminated _ state => "block '" ++ state ++ "' is never closed"
  | rejected _ cause => cause.message

/-- The wording of a fault. -/
def message (e : SourceError) : String :=
  let place :=
    match e.column? with
    | some column => "line " ++ toString e.line ++ ", col " ++ toString column
    | none => "line " ++ toString e.line
  place ++ ": " ++ e.reason

end SourceError

end TaskTable
