import TaskTable.Grammar.Reader
import TaskTable.Grammar.Rule
import TaskTable.Text.Quoted

/-!
# Tokens

The smallest forms of tables and scripts: names, values with and without quotes, numbers.
-/

namespace TaskTable
namespace Grammar

open Reader

/-- A reader over the rules of tables and scripts. -/
abbrev TextReader := Reader Rule

/-- The characters between tokens: space, tab and the line ends. -/
def isGap (c : Char) : Bool :=
  [' ', '\t', '\n', '\r'].contains c

/-- The characters of a name: ASCII letters and digits, `_`, `-` and `.`. -/
def isNameChar (c : Char) : Bool :=
  c.isAlphanum || c == '_' || c == '-' || c == '.'

/-- The characters of a value that is written without quotes. -/
def isValueChar (c : Char) : Bool :=
  !isGap c && !Text.isReserved c

/-- Any run of characters between tokens. -/
def gap : TextReader Unit := do
  let _ ← run isGap
  return ()

/-- Repetitions of a form with any gap between them. A gap that no form follows is left unread. -/
def spaced {α : Type} (p : TextReader α) : TextReader (List α) := do
  let first ← opt p
  match first with
  | none => return []
  | some a =>
    let rest ← many (do gap; p)
    return a :: rest

/-- The end of the text, as a rule that can be blamed. -/
def endOfInput : TextReader Unit :=
  named .endOfInput atEnd

/-- A name. -/
def ident : TextReader String := named .ident do
  return String.ofList (← run1 isNameChar)

/-- The name of a state. -/
def stateName : TextReader String :=
  named .stateName ident

/-- The name of a selector method. -/
def methodName : TextReader String :=
  named .methodName ident

/-- The name of a timer. -/
def timerName : TextReader String :=
  named .timerName ident

/-- A value in single quotes, which may hold anything but a single quote. -/
def singleQuoted : TextReader (List Char) := named .singleQuoted do
  literal ['\'']
  let v ← named .singleInner (run (· != '\''))
  literal ['\'']
  return v

/-- A value in double quotes, which may hold anything but a double quote. -/
def doubleQuoted : TextReader (List Char) := named .doubleQuoted do
  literal ['"']
  let v ← named .doubleInner (run (· != '"'))
  literal ['"']
  return v

/-- A value without quotes. -/
def bareValue : TextReader (List Char) :=
  named .bareValue (run1 isValueChar)

/-- A value; quotes are no part of it. -/
def value : TextReader String := named .value do
  return String.ofList (← singleQuoted.orElse (doubleQuoted.orElse bareValue))

/-- A run of digits. -/
def uint : TextReader (List Char) :=
  named .uint (run1 Char.isDigit)

/-- The word `true` or `false`. -/
def boolLit : TextReader Bool := named .boolLit <|
  Reader.orElse (do literal "true".toList; return true) (do literal "false".toList; return false)

end Grammar
end TaskTable
