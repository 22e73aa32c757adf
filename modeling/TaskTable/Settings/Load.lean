import TaskTable.Settings.Environment
import TaskTable.Settings.File

/-!
# Loading settings

Settings come from three places, each of which goes over the ones before it: the defaults, a
settings file, and the environment. A file that is asked for must be there; `cadence.toml` may be
missing.
-/

namespace TaskTable
namespace Settings

/-! ## Settings as values -/

/-- The settings as a value that other values are laid over. -/
def toValue (s : Settings) : Value :=
  .table [
    ("logging", .table [("level", .text s.level), ("format", .text s.format)]),
    ("interpreter", .table [("pause_wait_seconds", .int s.pauseWait)]),
    ("simulation", .table [
      ("failure_probability", .real s.failureProbability),
      ("seed", s.seed.elim .nothing fun n => .int n.toNat),
      ("max_steps", .int s.maxSteps)])]

/-- A setting of a section, which must be there. -/
def required {α : Type} (fields : List (String × Value)) (name : String)
    (read : Value → Option α) : Except Error α :=
  match (fields.lookup name).bind read with
  | some a => .ok a
  | none => .error (.mistyped name)

/-- A setting of a section, which may be missing. -/
def optional {α : Type} (fields : List (String × Value)) (name : String)
    (read : Value → Option α) : Except Error (Option α) :=
  match fields.lookup name with
  | none | some .nothing => .ok none
  | some v =>
    match read v with
    | some a => .ok (some a)
    | none => .error (.mistyped name)

/-- The settings of a section, which are named in their order. -/
def sectionFields (v : Value) (name : String) (names : List String) :
    Except Error (List (String × Value)) :=
  required v.fields name (Value.record? names)

/-- The settings that a value gives. -/
def ofValue (v : Value) : Except Error Settings := do
  let logging ← sectionFields v "logging" ["level", "format"]
  let level ← required logging "level" Value.toText?
  let format ← required logging "format" Value.toText?
  let interpreter ← sectionFields v "interpreter" ["pause_wait_seconds"]
  let pauseWait ← required interpreter "pause_wait_seconds" Value.toWord64?
  let simulation ← sectionFields v "simulation" ["failure_probability", "seed", "max_steps"]
  let failureProbability ← required simulation "failure_probability" Value.toReal?
  let seed ← optional simulation "seed" Value.toWord64?
  let maxSteps ← required simulation "max_steps" Value.toWord64?
  return { level, format, pauseWait, failureProbability, seed := seed.map UInt64.ofNat, maxSteps }

/-! ## Loading -/

/-- What is asked for when settings are loaded. -/
structure Request where
  /-- The settings file. -/
  path : Option String := none
  /-- The log level, whatever is set elsewhere. -/
  level : Option String := none
  /-- Whether the environment takes part. -/
  withEnvironment : Bool := true

/-- The name of the settings file where none is asked for. -/
def defaultFile : String := "cadence.toml"

/-- The variable that names the settings file. -/
def pathVariable : String := "CADENCE_CONFIG_PATH"

section Files

variable {m : Type → Type} [Monad m] (files : FileReader m)

/-- The environment that takes part: nothing, or the variables and those that `.env` defines. -/
def environment (env : Variables) (r : Request) : m Variables := do
  if r.withEnvironment then
    match ← files ".env" with
    | .ok text => return Environment.load env text
    | .error _ => return env
  else return []

/-- What the settings file gives. -/
def fromFile (path : Option String) : m (Except Error Value) := do
  match path with
  | some path => findFile files path
  | none =>
    match ← findFile files defaultFile with
    | .error (.missing _) => return .ok (.table [])
    | r => return r

/-- The settings that values laid over the defaults give. -/
def combine (file : Value) (env : Variables) (level : Option String) : Except Error Settings := do
  let s ← ofValue (Environment.overlay env ((toValue {}).overlayFile file))
  validate { s with level := level.getD s.level }

/-- Loads the settings. -/
def load (env : Variables) (r : Request) : m (Except Error Settings) := do
  let env ← environment files env r
  match ← fromFile files (r.path <|> env.lookup pathVariable) with
  | .ok file => return combine file env r.level
  | .error e => return .error e

end Files

end Settings
end TaskTable
