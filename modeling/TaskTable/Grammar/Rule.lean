/-!
# Rule names

The named rules of tables and scripts, and the wording of a mismatch: the names of the rules that
were expected, in the order of their declaration.
-/

namespace TaskTable
namespace Grammar

/-- The rules that a mismatch may name, in the order in which it lists them. -/
inductive Rule
  | endOfInput
  | ident
  | stateName
  | methodName
  | timerName
  | value
  | singleQuoted
  | singleInner
  | doubleQuoted
  | doubleInner
  | bareValue
  | uint
  | boolLit
  | waitOpt
  | maxOpt
  | execOpt
  | blockOpen
  | blockClose
  | assignment
  | transition
  | tableLine
  | script
  | scriptBlock
  | verifyScript
  | verifyEntry
  deriving DecidableEq, Repr

namespace Rule

/-- Every rule, in the order in which a mismatch lists them. -/
def all : List Rule :=
  [.endOfInput, .ident, .stateName, .methodName, .timerName, .value, .singleQuoted, .singleInner,
    .doubleQuoted, .doubleInner, .bareValue, .uint, .boolLit, .waitOpt, .maxOpt, .execOpt,
    .blockOpen, .blockClose, .assignment, .transition, .tableLine, .script, .scriptBlock,
    .verifyScript, .verifyEntry]

/-- The name of a rule in messages. -/
def name : Rule → String
  | endOfInput => "EOI"
  | ident => "ident"
  | stateName => "state_name"
  | methodName => "method_name"
  | timerName => "timer_name"
  | value => "value"
  | singleQuoted => "single_quoted"
  | singleInner => "single_inner"
  | doubleQuoted => "double_quoted"
  | doubleInner => "double_inner"
  | bareValue => "bare_value"
  | uint => "uint"
  | boolLit => "bool_lit"
  | waitOpt => "wait_opt"
  | maxOpt => "max_opt"
  | execOpt => "exec_opt"
  | blockOpen => "block_open"
  | blockClose => "block_close"
  | assignment => "assignment"
  | transition => "transition"
  | tableLine => "table_line"
  | script => "script"
  | scriptBlock => "script_block"
  | verifyScript => "verify_script"
  | verifyEntry => "verify_entry"

/-- Rules in the order of their declaration, each once. -/
def inOrder (rules : List Rule) : List Rule :=
  all.filter fun r => rules.contains r

/-- Names as an English choice: `A`, `A or B`, `A, B, or C`. -/
def choice : List String → String
  | [] => "input"
  | [a] => a
  | [a, b] => a ++ " or " ++ b
  | a :: b :: rest =>
    ", ".intercalate (a :: b :: rest.dropLast) ++ ", or " ++ rest.getLast?.getD b

end Rule

end Grammar
end TaskTable
