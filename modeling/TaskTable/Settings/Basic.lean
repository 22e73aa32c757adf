import TaskTable.Supply.Random
import TaskTable.Toml.Text

/-!
# Settings

What can be set for the command line, the values that are allowed, and the written form of settings
as a TOML document.
-/

namespace TaskTable

/-- The settings in effect. -/
structure Settings where
  /-- Which log messages are shown. -/
  level : String := "info"
  /-- How log messages are shown: `full` or `compact`. -/
  format : String := "full"
  /-- Seconds that a step asks for while its task is held back. -/
  pauseWait : Nat := 60
  /-- How likely each draw of a random simulation is to be `!`. -/
  failureProbability : Number.Binary64 := RandomSupply.defaultProbability
  /-- The seed of random simulations; a fresh one for each without it. -/
  seed : Option UInt64 := none
  /-- The most steps of a run. -/
  maxSteps : Nat := 1000
  deriving DecidableEq, Repr

namespace Settings

/-- A problem with settings. -/
inductive Error
  /-- There is no settings file of this name. -/
  | missing (path : String)
  /-- The name of a settings file does not tell its format. -/
  | unknownFormat (path : String)
  /-- A settings file cannot be read. -/
  | malformed (path : String)
  /-- A setting has a value of the wrong kind. -/
  | mistyped (key : String)
  | probability (p : Number.Binary64)
  | noSteps
  | format (f : String)
  /-- A whole number is too large to be written. -/
  | numberTooLarge
  deriving DecidableEq, Repr

namespace Error

/-- The wording of a problem, without the words for its kind. -/
def detail : Error → String
  | missing path => "configuration file \"" ++ path ++ "\" not found"
  | unknownFormat path =>
    "configuration file \"" ++ path ++ "\" is not of a registered file format"
  | malformed path => "configuration file \"" ++ path ++ "\" cannot be read"
  | mistyped key => "invalid value for `" ++ key ++ "`"
  | probability p =>
    "simulation.failure_probability must be within 0.0..=1.0, got " ++ p.toMessage
  | noSteps => "simulation.max_steps must be at least 1"
  | format f => "logging.format must be 'full' or 'compact', got '" ++ f ++ "'"
  | numberTooLarge => "out-of-range value for u64 type"

/-- Whether the settings could be read and only a value is not allowed. -/
def isInvalid : Error → Bool
  | probability _ | noSteps | format _ => true
  | _ => false

/-- The wordings of a problem and of its causes. -/
def chain (e : Error) : List String :=
  match e with
  | numberTooLarge => ["failed to render configuration: " ++ e.detail, e.detail]
  | probability _ | noSteps | format _ => ["invalid configuration: " ++ e.detail]
  | _ => ["failed to load configuration: " ++ e.detail, e.detail]

end Error

/-- The settings, if all values are allowed. -/
def validate (s : Settings) : Except Error Settings :=
  if !s.failureProbability.isProbability then .error (.probability s.failureProbability)
  else if s.maxSteps = 0 then .error .noSteps
  else if s.format ≠ "full" ∧ s.format ≠ "compact" then .error (.format s.format)
  else .ok s

/-- A text in quotes. -/
def quoted (s : String) : String :=
  String.ofList (Toml.quoted s.toList)

/-- The settings as a TOML document, which has whole numbers of 63 bits only. -/
def toToml (s : Settings) : Except Error String :=
  let numbers := [s.pauseWait, s.maxSteps] ++ s.seed.toList.map UInt64.toNat
  if numbers.any fun n => n ≥ Number.twoPow 63 then .error .numberTooLarge
  else
    .ok <| String.join [
      "[logging]\n",
      "level = ", quoted s.level, "\n",
      "format = ", quoted s.format, "\n",
      "\n[interpreter]\n",
      "pause_wait_seconds = ", toString s.pauseWait, "\n",
      "\n[simulation]\n",
      "failure_probability = ", s.failureProbability.toSetting, "\n",
      s.seed.elim "" fun n => "seed = " ++ toString n.toNat ++ "\n",
      "max_steps = ", toString s.maxSteps, "\n"]

end Settings
end TaskTable
