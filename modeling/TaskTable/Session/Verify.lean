import TaskTable.Recording.Scripts
import TaskTable.Session.Build
import TaskTable.Session.Run
import TaskTable.Supply.Verified

/-!
# Verification

A table is held to a verification script by a run without any handler in which the script stands in
for the selectors. The run must ask for the states of all entries, in order.
-/

namespace TaskTable
namespace Verification

/-- Why a table does not do what a script says. -/
inductive Failure
  /-- The task cannot be started. -/
  | notStarted (f : Fault)
  /-- A step failed. -/
  | stepFailed (e : RunFailure)
  /-- What was recorded cannot be read as a script. -/
  | unreadable (e : SourceError)
  /-- The run was over before all entries were asked for. -/
  | stopped (replayed expected : Nat) (status : Status)
  deriving DecidableEq, Repr

/-- The wordings of a failure and of its causes. -/
def Failure.chain : Failure → List String
  | notStarted f => f.chain
  | stepFailed e => "Verification failed" :: e.chain
  | unreadable e => e.chain
  | stopped replayed expected status =>
    ["Verification failed: task stopped after " ++ toString replayed ++ " of " ++ toString expected
      ++ " entries (status: " ++ status.name ++ ")"]

/-- The session that a verification runs in. -/
def session (t : Table) (entries : List (String × String)) (taskId : String) (now : Instant) :
    Except Fault (Session Unit VerifyingSupply) :=
  let setup : Setup Unit VerifyingSupply :=
    { table := t, handler := Handler.none, memory := (), taskId,
      supply := some (VerifyingSupply.ofEntries entries) }
  (setup.build now).2

/-- The verdict on what was recorded in a run: all entries must stand in the script of what the
selectors gave. -/
def judge (r : Recording) (expected : Nat) (status : Status) : Except Failure Status :=
  match Script.readEntries r.verificationScript with
  | .error e => .error (.unreadable e)
  | .ok replayed =>
    if replayed.length < expected then .error (.stopped replayed.length expected status)
    else .ok status

/-- Runs a table along the entries of a verification script, for at most `maxSteps` steps. The
result is how the task stands at the end. -/
def verify (t : Table) (entries : List (String × String)) (maxSteps : Nat) (taskId : String)
    (now : Instant) : Except Failure Status :=
  match session t entries taskId now with
  | .error f => .error (.notStarted f)
  | .ok s =>
    match s.run maxSteps false now with
    | (_, .error e) => .error (.stepFailed e)
    | (s, .ok summary) => judge s.task.recording entries.length summary.last.status

end Verification
end TaskTable
