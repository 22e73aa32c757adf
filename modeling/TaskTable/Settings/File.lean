import TaskTable.Files
import TaskTable.Ini
import TaskTable.Json.Text
import TaskTable.Json5
import TaskTable.Ron
import TaskTable.Settings.Basic
import TaskTable.Settings.Lenient
import TaskTable.Toml.Document
import TaskTable.Yaml.Document

/-!
# Settings files

A settings file is written in one of several formats, which the ending of its name tells. Where it
is asked for, the ending may be left out.
-/

namespace TaskTable
namespace Settings

/-! ## Formats -/

mutual

/-- A value that a JSON document gives. -/
def ofJson : Json → Value
  | .null => .nothing
  | .bool b => .bool b
  | .int n => if n < Number.twoPow 63 then .int n else .real (Value.realOfInt n)
  | .real x => .real x
  | .str s => .text s
  | .arr items => .list (ofJsonItems items)
  | .obj fields => .table (ofJsonFields fields)

/-- Values that a JSON document gives. -/
def ofJsonItems : List Json → List Value
  | [] => []
  | j :: rest => ofJson j :: ofJsonItems rest

/-- Fields that a JSON document gives. -/
def ofJsonFields : List (String × Json) → List (String × Value)
  | [] => []
  | (k, j) :: rest => (k, ofJson j) :: ofJsonFields rest

end

/-- The format of a settings file. -/
inductive Format
  | toml
  | json
  | yaml
  | ini
  | ron
  | json5
  deriving DecidableEq, Repr

namespace Format

/-- The formats by the endings that tell them. -/
def endings : List (String × Format) :=
  [("toml", toml), ("json", json), ("yaml", yaml), ("yml", yaml), ("ini", ini), ("ron", ron),
    ("json5", json5)]

/-- The value that a settings file gives. A byte order mark may stand first. -/
def read? (f : Format) (text : String) : Option Value :=
  let text :=
    match text.toList with
    | '\ufeff' :: rest => String.ofList rest
    | _ => text
  match f with
  | toml => Toml.ofText? text
  | json => (Json.ofText? text).map fun j => ofJson j.canonical
  | yaml => Yaml.ofText? text
  | ini => Ini.ofText? text
  | ron => Ron.ofText? text
  | json5 => Json5.ofText? text

/-- The format that the name of a file tells by what follows its last point, which does not stand
first. -/
def ofPath? (path : String) : Option Format :=
  let name := (path.toList.reverse.takeWhile (· ≠ '/')).reverse
  let ending := (name.reverse.takeWhile (· ≠ '.')).reverse
  if ending.length + 1 < name.length then endings.lookup (String.ofList ending) else none

end Format

/-! ## Names -/

/-- The value that a settings file gives, which is a table. -/
def readFile (path : String) (format : Format) (text : String) : Except Error Value :=
  match format.read? text with
  | some (.table fields) => .ok (.table fields)
  | _ => .error (.malformed path)

/-- A path, last character first, without what stays in one place at its end. -/
def dropEnd : List Char → List Char
  | '/' :: rest => dropEnd rest
  | '.' :: '/' :: rest => dropEnd rest
  | path => path

/-- A path that an ending may be put to: it must end in a name. -/
def stem? (path : String) : Option String :=
  let path := dropEnd path.toList.reverse
  if [[], ['.'], ['.', '.']].contains (path.takeWhile (· ≠ '/')) then none
  else some (String.ofList path.reverse)

section Files

variable {m : Type → Type} [Monad m] (files : FileReader m)

/-- The value that the settings file gives whose name is a path with one of some endings put to
it. -/
def findEnding (path stem : String) : List (String × Format) → m (Except Error Value)
  | [] => return .error (.missing path)
  | (ending, format) :: rest => do
    match ← files (stem ++ "." ++ ending) with
    | .ok text => return readFile path format text
    | .error _ => findEnding path stem rest

/-- The value that the settings file with a given name gives. The name may lack the ending that
tells the format. -/
def findFile (path : String) : m (Except Error Value) := do
  match ← files path with
  | .ok text =>
    match Format.ofPath? path with
    | some format => return readFile path format text
    | none => return .error (.unknownFormat path)
  | .error _ =>
    match stem? path with
    | some stem => findEnding files path stem Format.endings
    | none => return .error (.missing path)

end Files

end Settings
end TaskTable
