import TaskTable.Toml.Value

/-!
# TOML documents

A document is a sequence of lines: a key and its value, or the header of the table that the keys
after it belong to. The header of an item of a list of tables has two brackets.
-/

namespace TaskTable
namespace Toml

open Settings (Value)

/-- A line that is neither blank nor a comment. -/
inductive Statement
  | pair (path : List String) (key : String) (v : Value)
  | table (path : List String) (key : String)
  | item (path : List String) (key : String)

/-- A header after its opening bracket. -/
def readHeader (s : List Char) : Option (Statement × List Char) := do
  match s with
  | '[' :: rest =>
    match ← readKey rest with
    | (path, key, ']' :: ']' :: rest) => return (.item path key, rest)
    | _ => none
  | s =>
    match ← readKey s with
    | (path, key, ']' :: rest) => return (.table path key, rest)
    | _ => none

/-- One statement. Values have less than 80 levels of nesting. -/
def readStatement (s : List Char) : Option (Statement × List Char) :=
  match s with
  | '[' :: rest => readHeader rest
  | s => (readPair (readValue 79) s).map fun ((path, key, v), rest) => (.pair path key v, rest)

/-- The text after the end of a statement's line, on which only a comment may follow. -/
def endStatement? (s : List Char) : Option (List Char) :=
  let rest :=
    match skipBlanks s with
    | '#' :: rest => rest.dropWhile isPrintable
    | rest => rest
  if rest.isEmpty then some [] else newline? rest

/-- The statements of a document, at most `fuel` of them. -/
def readStatements : (fuel : Nat) → List Char → Option (List Statement)
  | 0, _ => none
  | fuel + 1, s =>
    match skipGap false s with
    | [] => some []
    | s => do
      let (so, rest) ← readStatement s
      return so :: (← readStatements fuel (← endStatement? rest))

/-- A document while it is read. -/
structure Draft where
  /-- The tables that are finished. -/
  root : Fields := []
  /-- The table that keys are added to. -/
  current : Fields := []
  /-- The header of that table; none for the keys before any header. -/
  header : Option Statement := none

namespace Draft

/-- All fields, with the current table put where its header says. -/
def finish (d : Draft) : Option Fields :=
  match d.header with
  | some (.table path key) => d.root.addTable path key d.current
  | some (.item path key) => d.root.addItem path key d.current
  | _ => some d.current

/-- The draft with one more statement. -/
def add (d : Draft) : Statement → Option Draft
  | .pair path key v => do return { d with current := ← d.current.addValue path key v }
  | .table path key => do
    let root ← d.finish
    return ⟨root, root.impliedAt (path ++ [key]), some (.table path key)⟩
  | .item path key => do return ⟨← d.finish, [], some (.item path key)⟩

end Draft

/-- The table that a document writes. -/
def ofText? (s : String) : Option Value := do
  let text :=
    match s.toList with
    | '\ufeff' :: rest => rest
    | text => text
  let statements ← readStatements (text.length + 1) text
  let draft ← statements.foldlM Draft.add {}
  match ← Moment.unmark? (.table (← draft.finish).toValues) with
  | .table fields => return .table fields
  | _ => none

end Toml
end TaskTable
