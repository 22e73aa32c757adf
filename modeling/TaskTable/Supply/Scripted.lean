import TaskTable.Script.Read
import TaskTable.SortedMap
import TaskTable.Supply.Basic

/-!
# Scripted supplies

A simulation script gives each state a list of values. They are handed out one by one, whatever is
asked in other states meanwhile; when they run out, the last one is given again and again.
-/

namespace TaskTable

/-- A simulation script in use. -/
structure ScriptedSupply where
  values : SortedMap String (List String)
  /-- How often each state was given a value. -/
  cursors : SortedMap String Nat := .empty
  deriving DecidableEq

namespace ScriptedSupply

/-- The supply for the groups of a script. Groups of one state are joined in their order. -/
def ofGroups (groups : List (String × List String)) : ScriptedSupply where
  values := groups.foldl (fun m g => m.insert g.1 (m.getD g.1 [] ++ g.2)) .empty

/-- The supply for the text of a script. -/
def read (source : String) : Except SupplyError ScriptedSupply :=
  match Script.readGroups source with
  | .ok groups => .ok (ofGroups groups)
  | .error e => .error (.unreadable e)

/-- The next value of a state. -/
def next (s : ScriptedSupply) (state : String) : ScriptedSupply × Except SupplyError String :=
  match s.values.get? state with
  | none => (s, .error (.unknownState state))
  | some values =>
    let cursor := s.cursors.getD state 0
    match values[min cursor (values.length - 1)]? with
    | none => (s, .error (.noValues state))
    | some v => ({ s with cursors := s.cursors.insert state (cursor + 1) }, .ok v)

/-- The supply before any value was given. -/
def rewind (s : ScriptedSupply) : ScriptedSupply :=
  { s with cursors := .empty }

instance : Supply ScriptedSupply where
  next s state _ := s.next state
  rewind := rewind

end ScriptedSupply

end TaskTable
