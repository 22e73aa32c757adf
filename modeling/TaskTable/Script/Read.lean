import TaskTable.Grammar.Script
import TaskTable.Table.SourceError
import TaskTable.Text.Comment
import TaskTable.Text.Lines

/-!
# Reading scripts

A script is read as one text once the comments are off its lines. A mismatch is placed in the text
without comments, which has the lines of the text with them.
-/

namespace TaskTable

namespace Script

open Grammar

/-- A script without its comments. Its lines keep their numbers. -/
def stripComments (source : List Char) : List Char :=
  Text.unlines ((Text.lines source).map Text.stripComment)

/-- The line and column of the point after the characters read so far. A carriage return belongs to
the line feed after it and is a character of its own elsewhere. -/
def place (line column : Nat) : List Char → Nat × Nat
  | [] => (line, column)
  | '\n' :: cs => place (line + 1) 1 cs
  | '\r' :: '\n' :: cs => place (line + 1) 1 cs
  | _ :: cs => place line (column + 1) cs

/-- A script as one form. -/
def readAll {α : Type} (form : TextReader α) (source : String) : Except SourceError α :=
  let text := stripComments source.toList
  match form.parse text with
  | .ok a => .ok a
  | .error b =>
    let (line, column) := place 1 1 (text.take (text.length - b.rest))
    .error (.unexpected line column b.rules)

/-- The groups of a simulation script: each state with its values, in order. -/
def readGroups (source : String) : Except SourceError (List (String × List String)) :=
  readAll script source

/-- The entries of a verification script: each state with its value, in order. -/
def readEntries (source : String) : Except SourceError (List (String × String)) :=
  readAll verifyScript source

end Script

end TaskTable
