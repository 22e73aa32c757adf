import TaskTable.Script.Read
import TaskTable.Supply.Basic

/-!
# Verifying supplies

A verification script is a list of states and values. Its entries must be asked for in order: each
question must come from the state that the next entry names.
-/

namespace TaskTable

/-- A verification script in use. -/
structure VerifyingSupply where
  entries : List (String × String)
  /-- How many entries were given. -/
  position : Nat := 0
  deriving DecidableEq, Repr

namespace VerifyingSupply

/-- The supply for the entries of a script. -/
def ofEntries (entries : List (String × String)) : VerifyingSupply :=
  { entries }

/-- The supply for the text of a script. -/
def read (source : String) : Except SupplyError VerifyingSupply :=
  match Script.readEntries source with
  | .ok entries => .ok (ofEntries entries)
  | .error e => .error (.unreadable e)

/-- The value of the next entry, which must be one for `state`. -/
def next (s : VerifyingSupply) (state : String) : VerifyingSupply × Except SupplyError String :=
  match s.entries[s.position]? with
  | none => (s, .error (.exhausted state))
  | some (expected, value) =>
    if expected = state then ({ s with position := s.position + 1 }, .ok value)
    else (s, .error (.mismatch (s.position + 1) expected state))

/-- Whether every entry was given. -/
def isFinished (s : VerifyingSupply) : Bool :=
  s.entries.length ≤ s.position

/-- The supply before any value was given. -/
def rewind (s : VerifyingSupply) : VerifyingSupply :=
  { s with position := 0 }

instance : Supply VerifyingSupply where
  next s state _ := s.next state
  rewind := rewind

end VerifyingSupply

end TaskTable
