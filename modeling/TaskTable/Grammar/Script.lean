import TaskTable.Grammar.Token

/-!
# Scripts

The two script forms. A simulation script is a sequence of groups `state { value ... }`; a
verification script is a sequence of entries `state value`. Line ends separate tokens like any other
gap, so both are read as whole texts.
-/

namespace TaskTable
namespace Grammar

open Reader

/-- A state and the values that a simulation script gives it. -/
def scriptBlock : TextReader (String × List String) := named .scriptBlock do
  let state ← stateName
  gap
  literal ['{']
  gap
  let values ← spaced value
  gap
  literal ['}']
  return (state, values)

/-- A whole simulation script. -/
def script : TextReader (List (String × List String)) := named .script do
  gap
  let groups ← spaced scriptBlock
  gap
  endOfInput
  return groups

/-- A state and the value that a verification script expects it to choose. -/
def verifyEntry : TextReader (String × String) := named .verifyEntry do
  let state ← stateName
  gap
  let v ← value
  return (state, v)

/-- A whole verification script. -/
def verifyScript : TextReader (List (String × String)) := named .verifyScript do
  gap
  let entries ← spaced verifyEntry
  gap
  endOfInput
  return entries

end Grammar
end TaskTable
