/-!
# Files

Reading files by name. Programs that read files do so through a reader that is handed to them, so
they run over a file system as well as over a table of texts.
-/

namespace TaskTable

/-- Why a file cannot be read. -/
inductive FileError
  | missing
  | directory
  | notADirectory
  | notText
  | other (reason : String)
  deriving DecidableEq, Repr

/-- The wording of a reason. -/
def FileError.message : FileError → String
  | missing => "No such file or directory (os error 2)"
  | directory => "Is a directory (os error 21)"
  | notADirectory => "Not a directory (os error 20)"
  | notText => "stream did not contain valid UTF-8"
  | other reason => reason

/-- Gives the text of the file with a name. -/
abbrev FileReader (m : Type → Type) := String → m (Except FileError String)

/-! ## Directories of texts -/

/-- The parts of a path, without those that stay where they are. -/
def pathParts (path : String) : List String :=
  (path.splitOn "/").filter fun part => part != "" && part != "."

/-- A directory that holds texts under their names. A name with slashes lies in directories inside
of it. -/
abbrev Directory := List (String × String)

namespace Directory

/-- What stands under a name. -/
def readName (d : Directory) (name : String) : Except FileError String :=
  if d.any fun t => (name ++ "/").isPrefixOf t.1 then .error .directory
  else
    match d.lookup name with
    | some text => .ok text
    | none => .error .missing

/-- What stands at the end of a path that starts `here`, in the directory inside of the outermost
one that these names lead to. Two points lead out of a directory again; outside of the outermost one
there is nothing but directories. -/
def readParts (d : Directory) (here : List String) : (parts : List String) → Except FileError String
  | [] => if here.isEmpty then .error .directory else d.readName ("/".intercalate here)
  | part :: rest =>
    if part = ".." then
      if here.isEmpty then if rest.all (· = "..") then .error .directory else .error .missing
      else d.readParts here.dropLast rest
    else
      let here := here ++ [part]
      if rest.isEmpty then d.readName ("/".intercalate here)
      else
        match d.readName ("/".intercalate here) with
        | .error .directory => d.readParts here rest
        | .error e => .error e
        | .ok _ => .error .notADirectory

end Directory

/-- Reads files from a directory, for one who stands in it. -/
def readFrom (d : Directory) (path : String) : Except FileError String :=
  let parts := pathParts path
  if path.isEmpty then .error .missing
  else if path.startsWith "/" then if parts.isEmpty then .error .directory else .error .missing
  else
    match d.readParts [] parts with
    | .ok text =>
      if path.endsWith "/" || path.endsWith "/." then .error .notADirectory else .ok text
    | .error e => .error e

end TaskTable
