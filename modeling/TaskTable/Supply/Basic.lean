import TaskTable.Number.Binary64
import TaskTable.Table.SourceError

/-!
# Supplies

What stands in for selectors while a task is simulated: a supply is asked for a value in each state,
and handlers are left alone. A supply can be rewound to where it began.
-/

namespace TaskTable

/-- Why a supply gives no value. -/
inductive SupplyError
  | unknownState (state : String)
  | noValues (state : String)
  | mismatch (position : Nat) (expected actual : String)
  | exhausted (state : String)
  | invalidProbability (p : Number.Binary64)
  | unreadable (e : SourceError)
  deriving DecidableEq, Repr

/-- The wording of an error. -/
def SupplyError.message : SupplyError → String
  | unknownState state => "script has no entry for state '" ++ state ++ "'"
  | noValues state => "script entry for state '" ++ state ++ "' has no values"
  | mismatch position expected actual =>
    "verification step " ++ toString position ++ ": expected state '" ++ expected ++ "', visited '"
      ++ actual ++ "'"
  | exhausted state => "verification script exhausted at state '" ++ state ++ "'"
  | invalidProbability p => "failure probability " ++ p.toMessage ++ " is outside 0.0..=1.0"
  | unreadable e => e.message

/-- A supply of values. -/
class Supply (τ : Type) where
  /-- The value for a state with the given selector method. -/
  next : τ → (state method : String) → τ × Except SupplyError String
  /-- The supply as it was at first. -/
  rewind : τ → τ

end TaskTable
