import TaskTable.Grammar.Token
import TaskTable.Text.Lines

/-!
# Table lines

The four forms of a table line: a block header, the end of a block, an assignment and a transition.
The forms are tried in that order, with the end of a block first, and the first that matches is kept
even when something follows it.
-/

namespace TaskTable
namespace Grammar

open Reader

/-- One option of a transition, as written. -/
inductive Setting
  | wait (digits : List Char)
  | max (digits : List Char)
  | exec (on : Bool)
  deriving DecidableEq, Repr

/-- An option together with its place: the number of bytes of its line from its first character
on. -/
structure PlacedSetting where
  bytesAhead : Nat
  setting : Setting
  deriving DecidableEq, Repr

/-- A line of a table, as written. -/
inductive Line
  | blockClose
  | blockOpen (state : String) (method timer : Option String)
  | assignment (name value : String)
  | transition (value target : String) (settings : List PlacedSetting)
  deriving DecidableEq, Repr

/-- The option `wait=` and a number. -/
def waitOpt : TextReader Setting := named .waitOpt do
  literal "wait=".toList
  return .wait (← uint)

/-- The option `max=` and a number. -/
def maxOpt : TextReader Setting := named .maxOpt do
  literal "max=".toList
  return .max (← uint)

/-- The option `exec=` and a truth value. -/
def execOpt : TextReader Setting := named .execOpt do
  literal "exec=".toList
  return .exec (← boolLit)

/-- One option of a transition. -/
def setting : TextReader PlacedSetting := do
  let here ← ahead
  let s ← waitOpt.orElse (maxOpt.orElse execOpt)
  return ⟨Text.byteLength here, s⟩

/-- A block header: `state:method [timer] {`, where the method and the timer may be missing. -/
def blockOpen : TextReader Line := named .blockOpen do
  let state ← stateName
  gap
  let method ← opt (do literal [':']; gap; methodName)
  gap
  let timer ← opt (do literal ['[']; gap; let t ← timerName; gap; literal [']']; return t)
  gap
  literal ['{']
  return .blockOpen state method timer

/-- The end of a block. -/
def blockClose : TextReader Line := named .blockClose do
  literal ['}']
  return .blockClose

/-- A top-level assignment: `name = value`. -/
def assignment : TextReader Line := named .assignment do
  let name ← ident
  gap
  literal ['=']
  gap
  let v ← value
  return .assignment name v

/-- A transition: `value target` and any options. -/
def transition : TextReader Line := named .transition do
  let v ← value
  gap
  let target ← stateName
  gap
  let settings ← spaced setting
  return .transition v target settings

/-- A whole line of a table. -/
def tableLine : TextReader Line := named .tableLine do
  gap
  let line ← blockClose.orElse (blockOpen.orElse (assignment.orElse transition))
  gap
  endOfInput
  return line

end Grammar
end TaskTable
