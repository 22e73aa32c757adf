import TaskTable.Random.ChaCha
import TaskTable.Supply.Random
import TaskTable.Supply.Scripted
import TaskTable.Supply.Verified

/-!
# Supplies of any kind

One of the three supplies that come with the library.
-/

namespace TaskTable

/-- A scripted, verifying or random supply. -/
inductive AnySupply
  | scripted (s : ScriptedSupply)
  | verifying (s : VerifyingSupply)
  | random (s : RandomSupply ChaCha)

namespace AnySupply

/-- The kind of a supply. -/
def name : AnySupply → String
  | scripted _ => "script"
  | verifying _ => "verify"
  | random _ => "random"

/-- The next value of a state. -/
def next (s : AnySupply) (state method : String) : AnySupply × Except SupplyError String :=
  match s with
  | scripted s => (scripted (s.next state).1, (s.next state).2)
  | verifying s => (verifying (s.next state).1, (s.next state).2)
  | random s =>
    match s.next state method with
    | (s, r) => (random s, r)

/-- The supply as it was at first. -/
def rewind : AnySupply → AnySupply
  | scripted s => scripted s.rewind
  | verifying s => verifying s.rewind
  | random s => random s.rewind

instance : Supply AnySupply where
  next := next
  rewind := rewind

end AnySupply

end TaskTable
