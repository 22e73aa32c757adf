import TaskTable.Number.Hexadecimal
import TaskTable.Settings.Value
import TaskTable.Text.Blank

/-!
# INI documents

A document is a sequence of entries, each a key, a mark and a value, and of headers of sections. The
entries before the first header belong to no section. All values are texts. A comment takes a line
from its first column on.
-/

namespace TaskTable
namespace Ini

open Settings (Value)

/-! ## Texts -/

/-- The character that another one stands for after a backslash. -/
def escaped (c : Char) : Char :=
  if c = '0' then '\x00'
  else if c = 'a' then '\x07'
  else if c = 'b' then '\x08'
  else if c = 't' then '\t'
  else if c = 'r' then '\r'
  else if c = 'n' then '\n'
  else c

/-- A text up to a character that ends it, or up to the end of the document. A backslash joins two
lines, or starts an escape; an `x` after it is followed by four hexadecimal digits. -/
def readUntil (isEnd : Char → Bool) : List Char → Option (List Char × List Char)
  | [] => some ([], [])
  | '\\' :: '\n' :: rest => readUntil isEnd rest
  | '\\' :: 'x' :: a :: b :: c :: d :: rest => do
    let e ← Number.charOfHex? [a, b, c, d]
    let (cs, rest) ← readUntil isEnd rest
    return (e :: cs, rest)
  | '\\' :: 'x' :: _ => none
  | '\\' :: c :: rest => (readUntil isEnd rest).map fun (cs, rest) => (escaped c :: cs, rest)
  | c :: rest =>
    if isEnd c then some ([], c :: rest)
    else if c = '\\' then none
    else (readUntil isEnd rest).map fun (cs, rest) => (c :: cs, rest)

/-- A text up to a character that must end it, which is read too. -/
def readThrough (isEnd : Char → Bool) (s : List Char) : Option (List Char × List Char) :=
  match readUntil isEnd s with
  | some (cs, _ :: rest) => some (cs, rest)
  | _ => none

/-- Whether a character ends a line. -/
def isLineEnd (c : Char) : Bool :=
  c == '\n' || c == '\r'

/-- A value up to the end of its line. It may start with a text in quotes, which may go over
lines. -/
def readValue (s : List Char) : Option (String × List Char) := do
  let s := s.dropWhile fun c => Text.isBlank c && !isLineEnd c
  let (quoted, rest) ←
    match s with
    | '"' :: rest => readThrough (· == '"') rest
    | '\'' :: rest => readThrough (· == '\'') rest
    | s => some ([], s)
  let (plain, rest) ← readUntil isLineEnd rest
  return (String.ofList (Text.trim (quoted ++ plain)), rest)

/-- A text without the blanks around it, as a name. -/
def nameOf (cs : List Char) : String :=
  String.ofList (Text.trim cs)

/-! ## Documents -/

/-- Fields while they are read. -/
abbrev Fields := List (String × Value)

/-- A document while it is read. -/
structure Draft where
  /-- The fields of the document that are finished: entries outside of sections, and sections. -/
  fields : Fields := []
  /-- The section that entries are added to. -/
  current : Option (String × Fields) := none

namespace Draft

/-- All fields of the document. Of two sections with one name the later one counts. -/
def finish (d : Draft) : Fields :=
  match d.current with
  | some (name, entries) => Value.putField name (.table entries) d.fields
  | none => d.fields

/-- The draft with one more section. -/
def addSection (d : Draft) (name : String) : Draft :=
  ⟨d.finish, some (name, [])⟩

/-- The draft with one more entry. -/
def addEntry (d : Draft) (key value : String) : Draft :=
  match d.current with
  | some (name, entries) => ⟨d.fields, some (name, Value.putField key (.text value) entries)⟩
  | none => ⟨Value.putField key (.text value) d.fields, none⟩

end Draft

/-- Whether a character stands between a key and its value. -/
def isMark (c : Char) : Bool :=
  c == '=' || c == ':'

/-- A document read into a draft, in at most `fuel` steps; `start` tells whether a line starts. -/
def readLines (d : Draft) : (fuel : Nat) → (start : Bool) → List Char → Option Draft
  | 0, _, _ => none
  | _ + 1, _, [] => some d
  | fuel + 1, start, c :: rest =>
    if Text.isBlank c then readLines d fuel (c == '\n') rest
    else if c = ';' ∨ c = '#' then
      if start then readLines d fuel false (rest.dropWhile (· ≠ '\n')) else none
    else if c = '[' then do
      let (name, rest) ← readThrough (· == ']') rest
      readLines (d.addSection (nameOf name)) fuel false rest
    else do
      let (key, rest) ← readThrough isMark (c :: rest)
      if (Text.trim key).isEmpty then none
      else
        let (value, rest) ← readValue rest
        readLines (d.addEntry (nameOf key) value) fuel false rest

/-- The fields that a document writes. -/
def ofText? (s : String) : Option Value :=
  let text := s.toList
  (readLines {} (text.length + 1) true text).map fun d => .table d.finish

end Ini
end TaskTable
