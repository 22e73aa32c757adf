/-!
# Table errors

What can be wrong with a table as a whole or with a reference into it.
-/

namespace TaskTable

/-- A fault of a table or of a name looked up in it. -/
inductive TableError
  | missingBlock (state : String)
  | noStartState
  | duplicateBlock (state : String) (firstLine : Nat)
  | duplicateValue (state value : String) (firstLine : Nat)
  deriving DecidableEq, Repr

namespace TableError

/-- The wording of a fault. -/
def message : TableError → String
  | missingBlock state => "no transition block for state '" ++ state ++ "'"
  | noStartState => "state table has no blocks, so there is no start state"
  | duplicateBlock state firstLine =>
    "state '" ++ state ++ "' already declared on line " ++ toString firstLine
  | duplicateValue state value firstLine =>
    "value '" ++ value ++ "' already declared for state '" ++ state ++ "' on line "
      ++ toString firstLine

end TableError

end TaskTable
