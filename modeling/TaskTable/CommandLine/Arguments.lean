import TaskTable.Settings.Lenient

/-!
# Command-line arguments

A call names one command with its files and options. Options may stand anywhere after the command,
in two words or with an equals sign, and each may be given once. Two options belong to all commands
and may also stand before the command.
-/

namespace TaskTable
namespace CommandLine

/-! ## Calls -/

/-- What may be asked of a simulation. -/
structure SimulateOptions where
  /-- The simulation script; values are drawn at random without it. -/
  script : Option String := none
  seed : Option UInt64 := none
  maxSteps : Option Nat := none
  /-- Whether waits are waited for. -/
  honorWaits : Bool := false
  /-- Whether a script that replays the run is shown, and not its transcript. -/
  emitScript : Bool := false
  /-- Whether the run is shown as JSON. -/
  json : Bool := false
  deriving DecidableEq, Repr

/-- A command with its files. -/
inductive Command
  | validate (table : String)
  | simulate (table : String) (options : SimulateOptions)
  | verify (table script : String)
  | diff (actual expected : String)
  | config
  deriving DecidableEq, Repr

/-- A call. -/
structure Call where
  command : Command
  /-- The settings file. -/
  config : Option String := none
  logLevel : Option String := none
  deriving DecidableEq, Repr

/-- Why arguments make no call. -/
inductive UsageError
  /-- Help is asked for. -/
  | help
  /-- There are no arguments at all. -/
  | nothing
  | missingCommand
  | unknownCommand
  | unknownArgument
  /-- An option lacks its value, or a file has an empty name. -/
  | missingValue
  /-- A value is no number of 64 bits. -/
  | badNumber
  /-- An option without a value was given one. -/
  | unwantedValue
  /-- An option was given twice, or with one that it excludes. -/
  | conflict
  | missingFile
  deriving DecidableEq, Repr

/-! ## Forms -/

/-- What may be given after the name of an option. -/
inductive Kind
  | flag
  | text
  | path
  | number
  deriving DecidableEq, Repr

/-- What the arguments of a command look like. -/
structure Form where
  /-- The files, all of which must be named. -/
  files : List String
  options : List (String × Kind)
  /-- The commands that may follow. -/
  commands : List String := []

/-- The options that belong to all commands. -/
def globalOptions : List (String × Kind) :=
  [("config", .path), ("log-level", .text)]

/-- The commands. -/
def commandForms : List (String × Form) :=
  [ ("validate", ⟨["table"], globalOptions, []⟩),
    ("simulate", ⟨["table"], globalOptions ++
      [("script", .path), ("random", .flag), ("seed", .number), ("max-steps", .number),
        ("honor-waits", .flag), ("emit-script", .flag), ("json", .flag)], []⟩),
    ("verify", ⟨["table", "script"], globalOptions, []⟩),
    ("diff", ⟨["actual", "expected"], globalOptions, []⟩),
    ("config", ⟨[], globalOptions, []⟩) ]

/-- The arguments before a command. -/
def topForm : Form :=
  ⟨[], globalOptions, commandForms.map (·.1) ++ ["help"]⟩

/-- The pairs of options of a command that exclude each other. -/
def excluded : List (String × String) :=
  [("script", "random"), ("script", "seed")]

/-! ## Reading -/

/-- What was given to a form so far. -/
structure Given where
  /-- The options with their values; a flag has an empty one. -/
  options : List (String × String) := []
  /-- The files, in order. -/
  files : List String := []

/-- An argument that was begun and is checked only when the next one comes. -/
inductive Pending
  | nothing
  /-- An option whose value has not come yet. -/
  | awaiting (name : String) (kind : Kind)
  | option (name : String) (kind : Kind) (value : String)
  | file (value : String)

/-- Whether a value may be given to an option of a kind. -/
def checkValue (kind : Kind) (value : String) : Except UsageError Unit :=
  match kind with
  | .path => if value = "" then .error .missingValue else .ok ()
  | .number =>
    if (Settings.Value.word64OfText? value).isNone then .error .badNumber else .ok ()
  | .flag | .text => .ok ()

namespace Given

/-- The value of an option. -/
def option? (g : Given) (name : String) : Option String :=
  g.options.lookup name

/-- Whether an option was given. -/
def has (g : Given) (name : String) : Bool :=
  (g.option? name).isSome

/-- The number given to an option. -/
def number? (g : Given) (name : String) : Option Nat :=
  (g.option? name).bind Settings.Value.word64OfText?

/-- What was given, with one more option. -/
def addOption (g : Given) (name : String) (kind : Kind) (value : String) :
    Except UsageError Given := do
  if g.has name then throw .conflict
  checkValue kind value
  return { g with options := g.options ++ [(name, value)] }

/-- What was given, with the argument that was begun. -/
def settle (g : Given) : Pending → Except UsageError Given
  | .nothing => .ok g
  | .awaiting _ _ => .error .missingValue
  | .option name kind value => g.addOption name kind value
  | .file value =>
    if value = "" then .error .missingValue else .ok { g with files := g.files ++ [value] }

end Given

/-- An option in one word: its name, and its value where there is an equals sign. -/
def cutOption (s : List Char) : String × Option String :=
  let name := String.ofList (s.takeWhile (· ≠ '='))
  match s.dropWhile (· ≠ '=') with
  | [] => (name, none)
  | _ :: value => (name, some (String.ofList value))

/-- An argument that starts with two dashes. -/
def readLong (form : Form) (g : Given) (pending : Pending) (s : List Char) :
    Except UsageError (Given × Pending) := do
  let (name, value) := cutOption s
  match (("help", Kind.flag) :: form.options).lookup name, value with
  | none, _ => throw .unknownArgument
  | some .flag, some _ => throw .unwantedValue
  | some .flag, none =>
    let g ← g.settle pending
    if name = "help" then throw .help
    return (← g.addOption name .flag "", .nothing)
  | some kind, some value => return (← (← g.settle pending).addOption name kind value, .nothing)
  | some kind, none => return (← g.settle pending, .awaiting name kind)

/-- An argument that is no option: a file, unless there are enough of them. `trailing` says whether
two dashes came before it. -/
def readFile (form : Form) (g : Given) (pending : Pending) (trailing : Bool) (arg : String) :
    Except UsageError (Given × Pending) := do
  let before :=
    match pending with
    | .file _ => g.files.length + 1
    | _ => g.files.length
  if before < form.files.length then return (← g.settle pending, .file arg)
  else if form.commands.isEmpty || (trailing && form.commands.contains arg) then
    throw .unknownArgument
  else throw .unknownCommand

/-- The arguments up to a command, if the form has commands: what was given, what was begun, and the
command with the arguments after it. -/
def readArguments (form : Form) (g : Given) (pending : Pending) (trailing : Bool) :
    List String → Except UsageError (Given × Pending × Option (String × List String))
  | [] => .ok (g, pending, none)
  | arg :: rest => do
    if trailing then
      let (g, pending) ← readFile form g pending true arg
      readArguments form g pending true rest
    else
      match pending, arg.toList with
      | .awaiting name kind, s =>
        match s with
        | ['-', '-'] => readArguments form g pending true rest
        | '-' :: '-' :: s =>
          let (g, pending) ← readLong form g pending s
          readArguments form g pending false rest
        | '-' :: c :: _ =>
          if c = 'h' then throw .missingValue else throw .unknownArgument
        | _ => readArguments form g (.option name kind arg) false rest
      | pending, s =>
        if form.commands.contains arg then return (g, pending, some (arg, rest))
        match s with
        | ['-', '-'] => readArguments form g pending true rest
        | '-' :: '-' :: s =>
          let (g, pending) ← readLong form g pending s
          readArguments form g pending false rest
        | '-' :: c :: _ =>
          if c = 'h' then
            let _ ← g.settle pending
            throw .help
          else throw .unknownArgument
        | _ =>
          let (g, pending) ← readFile form g pending false arg
          readArguments form g pending false rest

/-! ## Calls from arguments -/

/-- What is given to a command. -/
def readCommand (form : Form) (args : List String) : Except UsageError Given := do
  let (g, pending, _) ← readArguments form {} .nothing false args
  let g ← g.settle pending
  if excluded.any fun (a, b) => g.has a && g.has b then throw .conflict
  if g.files.length < form.files.length then throw .missingFile
  return g

/-- The command with what is given to it. -/
def Command.ofGiven? (name : String) (g : Given) : Option Command :=
  match name, g.files with
  | "validate", [table] => some (.validate table)
  | "simulate", [table] =>
    some (.simulate table {
      script := g.option? "script"
      seed := (g.number? "seed").map UInt64.ofNat
      maxSteps := g.number? "max-steps"
      honorWaits := g.has "honor-waits"
      emitScript := g.has "emit-script"
      json := g.has "json" })
  | "verify", [table, script] => some (.verify table script)
  | "diff", [actual, expected] => some (.diff actual expected)
  | "config", [] => some .config
  | _, _ => none

/-- Help on a command: the words after `help` name at most one. -/
def helpOn (words : List String) : UsageError :=
  match words with
  | [] => .help
  | [name] => if topForm.commands.contains name then .help else .unknownCommand
  | _ => .unknownCommand

/-- The call that arguments make. -/
def Call.ofArguments (args : List String) : Except UsageError Call := do
  match ← readArguments topForm {} .nothing false args with
  | (g, pending, none) =>
    let g ← g.settle pending
    throw (if g.options.isEmpty then .nothing else .missingCommand)
  | (g, pending, some (name, rest)) =>
    match commandForms.lookup name with
    | none => throw (helpOn rest)
    | some form =>
      let given ← readCommand form rest
      let g ← g.settle pending
      match Command.ofGiven? name given with
      | none => throw .unknownCommand
      | some command =>
        return { command
                 config := given.option? "config" <|> g.option? "config"
                 logLevel := given.option? "log-level" <|> g.option? "log-level" }

end CommandLine
end TaskTable
