import TaskTable.Settings.Lenient
import TaskTable.Settings.Path
import TaskTable.Text.Alphanumeric
import TaskTable.Text.Blank

/-!
# The environment

Settings from environment variables, and the file `.env`, whose lines define further variables. A
variable that is already there keeps its value.
-/

namespace TaskTable
namespace Settings

/-- The variables of an environment, each name once, in the order in which they were set. -/
abbrev Variables := List (String × String)

namespace Environment

/-! ## Definition lines -/

/-- Where a reader of a value stands. -/
inductive Mode
  /-- Outside quotes. -/
  | plain
  /-- Between single quotes, where everything stands for itself. -/
  | single
  /-- Between double quotes. -/
  | double
  /-- After a blank outside quotes, where only a comment may follow. -/
  | done
  deriving DecidableEq, Repr

/-- The name of a variable that stands in a value, up to where it ends. -/
inductive Reference
  | none
  /-- After a dollar sign: letters and numbers. -/
  | named (name : List Char)
  /-- Between braces. -/
  | braced (name : List Char)
  deriving DecidableEq, Repr

/-- A character after a backslash. -/
def unescape? (c : Char) : Option Char :=
  if c = 'n' then some '\n'
  else if ['\\', '\'', '"', '$', ' '].contains c then some c
  else none

/-- The characters of a value in front of the rest of a line. `find` gives the values of variables
that the value refers to. -/
def readValue (find : String → String) (mode : Mode) (escaped : Bool) (ref : Reference) :
    List Char → Option (List Char)
  | [] =>
    match mode, ref with
    | .single, _ | .double, _ | _, .braced _ => none
    | _, .named name => some (find (String.ofList name)).toList
    | _, .none => some []
  | c :: rest =>
    if mode = .done then
      if c = ' ' ∨ c = '\t' then readValue find mode escaped ref rest
      else if c = '#' then some []
      else none
    else if escaped then do
      let d ← unescape? c
      return d :: (← readValue find mode false ref rest)
    else if mode = .single then
      if c = '\'' then readValue find .plain false ref rest
      else (readValue find mode false ref rest).map (c :: ·)
    else
      match ref with
      | .named name =>
        if Text.isAlphanumeric c then readValue find mode false (.named (name ++ [c])) rest
        else if c = '\x7b' ∧ name = [] then readValue find mode false (.braced []) rest
        else
          let value := (find (String.ofList name)).toList
          if c = '$' then (readValue find mode false (.named []) rest).map (value ++ ·)
          else (readValue find mode false .none rest).map fun r => value ++ c :: r
      | .braced name =>
        if c = '\x7d' then
          (readValue find mode false .none rest).map ((find (String.ofList name)).toList ++ ·)
        else readValue find mode false (.braced (name ++ [c])) rest
      | .none =>
        if c = '$' then readValue find mode false (.named []) rest
        else if c = '\\' then readValue find mode true ref rest
        else if mode = .double then
          if c = '"' then readValue find .plain false ref rest
          else (readValue find mode false ref rest).map (c :: ·)
        else if c = '\'' then readValue find .single false ref rest
        else if c = '"' then readValue find .double false ref rest
        else if c = ' ' ∨ c = '\t' then readValue find .done false ref rest
        else (readValue find mode false ref rest).map (c :: ·)

/-- The name of a variable and the text after it and its blanks. -/
def readName (s : List Char) : Option (String × List Char) :=
  match s with
  | [] => none
  | c :: _ =>
    if c.isAlpha || c == '_' then
      let inName (c : Char) := c.isAlphanum || c == '_' || c == '.'
      some (String.ofList (s.takeWhile inName), Text.trimStart (s.dropWhile inName))
    else none

/-- The text after an equals sign and its blanks. -/
def afterEquals : List Char → Option (List Char)
  | '=' :: rest => some (Text.trimStart rest)
  | _ => none

/-- The name that a definition gives a value, and the text of the value. The word `export` may stand
before it. -/
def definition? (first : String) (rest : List Char) : Option (String × List Char) :=
  match afterEquals rest with
  | some value => some (first, value)
  | none =>
    if first = "export" then do
      let (name, rest) ← readName rest
      return (name, ← afterEquals rest)
    else none

/-- What a line defines: nothing if it is blank or a comment. -/
def readLine (find : String → String) (line : List Char) :
    Option (Option (String × String)) := do
  let s := Text.trim line
  if s.isEmpty || s.head? == some '#' then return none
  else
    let (first, rest) ← readName s
    let (name, rest) ← definition? first rest
    if rest.isEmpty || rest.head? == some '#' then return some (name, "")
    else return some (name, String.ofList (← readValue find .plain false .none rest))

/-! ## Files of definitions -/

/-- Where a line of a file of definitions stands when its last character is reached. -/
inductive LineState
  | bare
  /-- After a blank outside quotes, where a comment may start. -/
  | blank
  /-- After a backslash outside quotes. -/
  | escape
  /-- Inside quotes of a kind. -/
  | quoted (quote : Char)
  /-- After a backslash inside quotes of a kind. -/
  | quotedEscape (quote : Char)
  deriving DecidableEq, Repr

/-- The state after one more character, if no comment starts with it. -/
def LineState.next (s : LineState) (c : Char) : LineState :=
  match s with
  | .quotedEscape q => .quoted q
  | .quoted q => if c = '\\' then .quotedEscape q else if c = q then .bare else .quoted q
  | .escape => .bare
  | .bare | .blank =>
    if c = '\\' then .escape
    else if c = '"' ∨ c = '\'' then .quoted c
    else if s = .bare ∧ Text.isBlank c ∧ c ≠ '\n' ∧ c ≠ '\r' then .blank
    else .bare

/-- The lines of a file of definitions. A line goes on over the next ones while a quote is open, and
ends before a comment, which starts the line or follows a blank. `line` is what was read of it, last
character first. At the end of the file there may be a line that does not end. -/
def linesFrom (state : LineState) (line : List Char) : List Char → List (Option (List Char))
  | [] => if state ≠ .bare then [none] else if line.isEmpty then [] else [some line.reverse]
  | c :: rest =>
    if c = '#' ∧ (state = .blank ∨ line.all Text.isBlank) then some line.reverse :: skipComment rest
    else
      let state := state.next c
      if c = '\n' ∧ state = .bare then some line.reverse :: linesFrom .bare [] rest
      else linesFrom state (c :: line) rest
where
  /-- The lines after a comment. -/
  skipComment : List Char → List (Option (List Char))
    | [] => []
    | c :: rest => if c = '\n' then linesFrom .bare [] rest else skipComment rest

/-- The environment with the definitions of some lines added, up to the first line that cannot be
read. -/
def define (env : Variables) : List (Option (List Char)) → Variables
  | [] => env
  | none :: _ => env
  | some line :: rest =>
    match readLine (fun name => (env.lookup name).getD "") line with
    | none => env
    | some none => define env rest
    | some (some (name, value)) =>
      define (if (env.lookup name).isSome then env else env ++ [(name, value)]) rest

/-- The environment with the definitions of a file added. A byte order mark may stand first. -/
def load (env : Variables) (file : String) : Variables :=
  match file.toList with
  | '\ufeff' :: text => define env (linesFrom .bare [] text)
  | text => define env (linesFrom .bare [] text)

/-! ## Settings -/

/-- What the names of variables that hold settings start with. -/
def mark : String := "cadence__"

/-- A text with a point for every double underscore. -/
def withPoints : List Char → List Char
  | [] => []
  | '_' :: '_' :: rest => '.' :: withPoints rest
  | c :: rest => c :: withPoints rest

/-- The path of the setting that a variable gives, if it gives one. The case of its name does not
matter. -/
def path? (name : String) : Option Path :=
  let s := (Value.lower name).toList
  if mark.toList.isPrefixOf s then
    some (Path.ofKey (String.ofList (withPoints (s.drop mark.length))))
  else none

/-- The names, in capitals, of the variables that give the settings. -/
def names : List String :=
  ["LOGGING__LEVEL", "LOGGING__FORMAT", "INTERPRETER__PAUSE_WAIT_SECONDS",
    "SIMULATION__FAILURE_PROBABILITY", "SIMULATION__SEED", "SIMULATION__MAX_STEPS"].map
    ("CADENCE__" ++ ·)

/-- Settings with those of the environment laid over them, later variables over earlier ones. -/
def overlay (env : Variables) (settings : Value) : Value :=
  env.foldl (fun v e =>
    match path? e.1 with
    | some path => v.overlayAt (.ofVariable e.2) path
    | none => v) settings

end Environment
end Settings
end TaskTable
