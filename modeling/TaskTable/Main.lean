import Std.Time.DateTime.Timestamp
import TaskTable.CommandLine.Run
import TaskTable.CommandLine.Usage
import TaskTable.Task.Id

/-!
# The program

The command line over the file system, the environment and the clock.
-/

namespace TaskTable
namespace Program

open CommandLine

/-- The text of a file. -/
def readFile (path : String) : IO (Except FileError String) := do
  try
    match String.fromUTF8? (← IO.FS.readBinFile path) with
    | some text => return .ok text
    | none => return .error .notText
  catch
    | .noFileOrDirectory .. => return .error .missing
    | e => return .error (.other (toString e))

/-- The variables of the environment that hold settings or name the settings file. -/
def readVariables : IO Settings.Variables :=
  (Settings.pathVariable :: Settings.Environment.names).foldlM (fun env name => do
    match ← IO.getEnv name with
    | some value => return env ++ [(name, value)]
    | none => return env) []

/-- The time now. -/
def now : IO Instant := do
  return .ofNanos (← Std.Time.Timestamp.now).toNanosecondsSinceUnixEpoch.toInt

/-- Some random bytes. -/
def freshBytes (count : USize) : IO (List Nat) := do
  return (← IO.getRandomBytes count).toList.map UInt8.toNat

/-- The surroundings of a call. -/
def surroundings : IO (Surroundings IO) := do
  return {
    files := readFile
    environment := ← readVariables
    now
    freshSeed := return UInt64.ofNat ((← freshBytes 8).foldl (fun n b => 256 * n + b) 0)
    freshTaskId := return Task.idOfBytes (← freshBytes 16) }

/-- Waits a number of seconds. -/
def sleep (seconds : Nat) : IO Unit :=
  seconds.forM fun _ _ => IO.sleep 1000

/-- Runs a call and shows what it leaves. -/
def run (c : Call) : IO UInt32 := do
  let outcome ← c.run (← surroundings)
  sleep outcome.waited
  IO.print outcome.output
  if outcome.isOk then return 0
  else
    IO.eprintln ("Error: " ++ outcome.message)
    return 1

end Program
end TaskTable

/-- Runs the call that the arguments make. -/
def main (args : List String) : IO UInt32 := do
  match TaskTable.CommandLine.Call.ofArguments args with
  | .ok call => TaskTable.Program.run call
  | .error e => do
    if e.exitCode = 0 then IO.print e.message else IO.eprint e.message
    return e.exitCode
