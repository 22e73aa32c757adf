import TaskTable.Digest.Sha256
import TaskTable.Grammar.Line
import TaskTable.Number.Digits
import TaskTable.Number.Power
import TaskTable.Table.Basic
import TaskTable.Table.SourceError
import TaskTable.Text.Blank
import TaskTable.Text.Comment

/-!
# Compiling tables

A table is compiled line by line. Comments and blanks at either end are taken off first; a line that
is then empty is skipped, and every other line must be one of the forms of `Grammar.Line` at a place
where that form is allowed. The first line that is not decides the error, and then there is no
table.
-/

namespace TaskTable

namespace Table

open Grammar

/-- The number that a run of digits stands for, if it fits into 32 bits. -/
def word32? (digits : List Char) : Option Nat :=
  if Number.ofDigits digits < Number.twoPow 32 then some (Number.ofDigits digits) else none

/-- A transition with one more option. The column of a number that does not fit is one more than the
characters of indentation and the bytes of the line before the option. -/
def applySetting (lineNo indent bytes : Nat) (t : Transition) (s : PlacedSetting) :
    Except SourceError Transition :=
  let tooLarge (digits : List Char) :=
    SourceError.numberTooLarge lineNo (indent + (bytes - s.bytesAhead) + 1) (String.ofList digits)
  match s.setting with
  | .wait digits =>
    match word32? digits with
    | some n => .ok { t with wait := n }
    | none => .error (tooLarge digits)
  | .max digits =>
    match word32? digits with
    | some n => .ok { t with max := n }
    | none => .error (tooLarge digits)
  | .exec on => .ok { t with exec := on }

/-- A table under construction: the blocks closed so far and the block that is open. -/
structure Unfinished where
  table : Table := {}
  openBlock : Option Block := none

/-- One line of a table, once its comment and outer blanks are off. -/
structure SourceLine where
  /-- The line's number. -/
  number : Nat
  /-- The blanks before the text. -/
  indent : Nat
  text : List Char

/-- The form of a line. The column of a mismatch is counted in the whole line. -/
def SourceLine.read (l : SourceLine) : Except SourceError Line :=
  match tableLine.parse l.text with
  | .ok line => .ok line
  | .error b =>
    .error (.unexpected l.number (l.indent + (l.text.length - b.rest) + 1) b.rules)

/-- The table after one more line. -/
def Unfinished.addLine (u : Unfinished) (l : SourceLine) : Except SourceError Unfinished := do
  match ← l.read, u.openBlock with
  | .blockOpen _ _ _, some b => .error (.blockStillOpen l.number b.state b.line)
  | .blockOpen state method timer, none =>
    match u.table.block? state with
    | some first => .error (.rejected l.number (.duplicateBlock state first.line))
    | none =>
      .ok { u with
        openBlock := some
          { state
            method := method.getD Names.emptyTransition
            timer := timer.getD Names.systemTimer
            line := l.number } }
  | .blockClose, none => .error (.closeWithoutOpen l.number)
  | .blockClose, some b =>
    match u.table.addBlock b with
    | .ok table => .ok { table, openBlock := none }
    | .error cause => .error (.rejected l.number cause)
  | .assignment _ _, some b => .error (.assignmentInside l.number b.state)
  | .assignment name value, none => .ok { u with table := u.table.setVariable name value }
  | .transition _ _ _, none => .error (.transitionOutside l.number)
  | .transition value target settings, some b =>
    let t ← settings.foldlM (applySetting l.number l.indent (Text.byteLength l.text))
      { value, target, line := l.number }
    match b.addTransition t with
    | .ok b => .ok { u with openBlock := some b }
    | .error cause => .error (.rejected l.number cause)

/-- The lines of a text that are neither blank nor comment only. -/
def sourceLines (source : List Char) : List SourceLine :=
  (Text.lines source).zipIdx.filterMap fun (raw, i) =>
    let stripped := Text.stripComment raw
    let text := Text.trim stripped
    if text.isEmpty then none else some ⟨i + 1, Text.indent stripped, text⟩

/-- The table after the last line. -/
def Unfinished.close (u : Unfinished) : Except SourceError Table :=
  match u.openBlock with
  | some b => .error (.unterminated b.line b.state)
  | none => .ok u.table

/-- The table that a text describes. -/
def compile (source : String) : Except SourceError Table := do
  let unfinished ← (sourceLines source.toList).foldlM Unfinished.addLine {}
  let table ← unfinished.close
  return { table with sourceHash := Digest.sha256 source }

end Table

end TaskTable
