import TaskTable.SortedMap
import TaskTable.Table.Names
import TaskTable.Time.Instant

/-!
# Timers

Named timers that add up how long a task was in states of each kind. At most one runs at a time.
-/

namespace TaskTable

/-- The timer that runs, and since when. -/
structure RunningTimer where
  name : String
  since : Instant
  deriving DecidableEq, Repr

/-- The milliseconds added up so far under each name, and the timer that runs. -/
structure Timers where
  totals : SortedMap String Nat := .empty
  active : Option RunningTimer := none
  deriving DecidableEq

namespace Timers

instance : Inhabited Timers := ⟨{}⟩

/-- The totals with some milliseconds more under a name. -/
def charge (totals : SortedMap String Nat) (name : String) (ms : Nat) : SortedMap String Nat :=
  totals.insert name (totals.getD name 0 + ms)

/-- The timers with none running; the one that ran is charged up to `now`. -/
def stop (t : Timers) (now : Instant) : Timers :=
  match t.active with
  | none => t
  | some a => ⟨charge t.totals a.name (a.since.elapsedMillis now), none⟩

/-- The timers with `name` running. A timer that runs already goes on. When the `user` timer starts
for the first time, the time since the task's creation is set down as `start_delay`. -/
def engage (t : Timers) (name : String) (now createdAt : Instant) : Timers :=
  match t.active with
  | some a => if a.name = name then t else start (t.stop now)
  | none => start t
where
  /-- The timers with `name` started at `now`, when none runs. -/
  start (t : Timers) : Timers :=
    let totals :=
      if name = Names.userTimer ∧ !t.totals.contains Names.startDelay then
        t.totals.insert Names.startDelay (createdAt.elapsedMillis now)
      else t.totals
    ⟨totals, some ⟨name, now⟩⟩

end Timers

end TaskTable
