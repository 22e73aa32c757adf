import TaskTable.Check.Report
import TaskTable.CommandLine.Arguments
import TaskTable.Json.Text
import TaskTable.Recording.Diff
import TaskTable.Recording.Scripts
import TaskTable.Recording.Stored
import TaskTable.Session.Verify
import TaskTable.Settings.Load
import TaskTable.Supply.Any
import TaskTable.Table.Compile

/-!
# Running calls

What each command does. A call is run in surroundings that give it files, the environment, the time
and fresh numbers; what it leaves is a text to show and, after a failure, the causes.
-/

namespace TaskTable
namespace CommandLine

/-- What a call is run in. -/
structure Surroundings (m : Type → Type) where
  files : FileReader m
  environment : Settings.Variables
  now : m Instant
  freshSeed : m UInt64
  freshTaskId : m String

/-- What a call leaves. -/
structure Outcome where
  /-- The text to show. -/
  output : String := ""
  /-- The wordings of what went wrong and of its causes; none after success. -/
  causes : List String := []
  /-- The seconds that the call waits. -/
  waited : Nat := 0
  deriving DecidableEq, Repr

/-- Whether a call succeeded. -/
def Outcome.isOk (o : Outcome) : Bool :=
  o.causes.isEmpty

/-- The wordings of a failure in one line. -/
def Outcome.message (o : Outcome) : String :=
  ": ".intercalate o.causes

/-- Work that may fail with the wordings of its causes. -/
abbrev Work (m : Type → Type) := ExceptT (List String) m

section

variable {m : Type → Type} [Monad m]

/-- A result, or the wordings of its error. -/
def orFail {ε α : Type} (causes : ε → List String) : Except ε α → Work m α
  | .ok a => pure a
  | .error e => throw (causes e)

/-- The text of a file. -/
def readText (w : Surroundings m) (path : String) : Work m String := do
  orFail (fun e => ["Failed to read " ++ path, e.message]) (← w.files path)

/-- The table in a file. -/
def readTable (w : Surroundings m) (path : String) : Work m Table := do
  let source ← readText w path
  orFail (fun e => ("Failed to compile " ++ path) :: e.chain) (Table.compile source)

/-! ## Commands -/

/-- Checks a table. -/
def validate (w : Surroundings m) (path : String) : Work m Outcome := do
  let report := Check.run (← readTable w path) none
  let causes := if report.hasErrors then ["validation failed for " ++ path] else []
  return { output := report.text, causes }

/-- The supply of a simulation, and its seed if it is a random one. -/
def supplyOf (w : Surroundings m) (settings : Settings) (options : SimulateOptions) (t : Table) :
    Work m (AnySupply × Option UInt64) := do
  match options.script with
  | some path =>
    let source ← readText w path
    let script ← orFail (fun e => ("Failed to parse " ++ path) :: e.chain)
      (ScriptedSupply.read source)
    return (.scripted script, none)
  | none =>
    let seed ←
      match options.seed <|> settings.seed with
      | some seed => pure seed
      | none => w.freshSeed
    let random : RandomSupply ChaCha := .ofTable t {} seed
    let random ← orFail SupplyError.chain (random.withProbability settings.failureProbability)
    return (.random random, some seed)

/-- A run as JSON. -/
def runJson (t : Task) (summary : RunSummary) (seed : Option UInt64) : Json :=
  Json.canonical <| .obj [
    ("task_id", .str t.id),
    ("steps", .nat summary.steps),
    ("complete", .bool summary.last.complete),
    ("status", .str summary.last.status.name),
    ("message", .option Json.str summary.last.message),
    ("seed", .option (fun n => .nat n.toNat) seed),
    ("recording", t.recording.toJson)]

/-- A run as text for people. -/
def runText (r : Recording) (summary : RunSummary) (seed : Option UInt64) : String :=
  let seedLine := seed.elim "" fun n => "Seed: " ++ toString n.toNat ++ "\n"
  let statusLines :=
    if summary.reachedLimit then "Status: incomplete (step limit reached)\n"
    else
      "Status: " ++ summary.last.status.name ++ "\n"
        ++ summary.last.message.elim "" fun text => "Message: " ++ text ++ "\n"
  r.transcript ++ "\n\n" ++ seedLine ++ "Steps: " ++ toString summary.steps ++ "\n" ++ statusLines

/-- Runs a table without any handler. -/
def simulate (w : Surroundings m) (settings : Settings) (path : String)
    (options : SimulateOptions) : Work m Outcome := do
  let t ← readTable w path
  let (supply, seed) ← supplyOf w settings options t
  let now ← w.now
  let setup : Setup Unit AnySupply :=
    { table := t, handler := Handler.none, memory := (), taskId := ← w.freshTaskId,
      supply := some supply, pauseWait := settings.pauseWait }
  let session ← orFail Fault.chain (setup.build now).2
  let (session, result) :=
    session.run (options.maxSteps.getD settings.maxSteps) options.honorWaits now
  let summary ← orFail RunFailure.chain result
  let recording := session.task.recording
  let output :=
    if options.json then (runJson session.task summary seed).toIndentedText ++ "\n"
    else if options.emitScript then recording.simulationScript
    else runText recording summary seed
  return { output, waited := summary.waited }

/-- Holds a table to a verification script. -/
def verify (w : Surroundings m) (settings : Settings) (path script : String) :
    Work m Outcome := do
  let t ← readTable w path
  let source ← readText w script
  let entries ← orFail (fun e => ("Failed to parse " ++ script) :: e.chain)
    (Script.readEntries source)
  let status ← orFail Verification.Failure.chain
    (Verification.verify t entries settings.maxSteps (← w.freshTaskId) (← w.now))
  return { output := "✓ Verified " ++ toString entries.length ++ " entries, status: "
    ++ status.name ++ "\n" }

/-- Compares two transcripts. -/
def diff (w : Surroundings m) (actual expected : String) : Work m Outcome := do
  let d := Transcript.diff (← readText w actual) (← readText w expected)
  if d.isEmpty then return { output := "✓ Transcripts match\n" }
  else return { output := d ++ "\n", causes := ["transcripts differ"] }

/-- Shows the settings in effect. -/
def showSettings (settings : Settings) : Work m Outcome := do
  return { output := ← orFail Settings.Error.chain settings.toToml }

/-! ## Calls -/

/-- Runs a command under settings. -/
def Command.run (w : Surroundings m) (settings : Settings) : Command → Work m Outcome
  | validate table => CommandLine.validate w table
  | simulate table options => CommandLine.simulate w settings table options
  | verify table script => CommandLine.verify w settings table script
  | diff actual expected => CommandLine.diff w actual expected
  | config => showSettings settings

/-- Runs a call: the settings are loaded first, whatever the command is. -/
def Call.work (w : Surroundings m) (c : Call) : Work m Outcome := do
  let loaded ← (Settings.load w.files w.environment { path := c.config, level := c.logLevel } : m _)
  let settings ← orFail (fun e => "Failed to load configuration" :: e.chain) loaded
  c.command.run w settings

/-- Runs a call. -/
def Call.run (w : Surroundings m) (c : Call) : m Outcome := do
  match ← (c.work w).run with
  | .ok outcome => return outcome
  | .error causes => return { causes }

end

end CommandLine
end TaskTable
