import TaskTable.Number.Digits
import TaskTable.Table.Basic
import TaskTable.Text.Lines
import TaskTable.Text.Quoted

/-!
# Written tables

The text of a table: a line for each variable, and then each block from its header to its closing
brace, with a line for each transition in which every option is written out.
-/

namespace TaskTable

/-- A transition as a line. -/
def Transition.written (t : Transition) : List Char :=
  Text.quoteChars t.value.toList ++ ' ' :: t.target.toList
    ++ " wait=".toList ++ Number.digits t.wait ++ " max=".toList ++ Number.digits t.max
    ++ " exec=".toList ++ (if t.exec then "true" else "false").toList

namespace Block

/-- The header of a block as a line. -/
def writtenHeader (b : Block) : List Char :=
  b.state.toList ++ ':' :: b.method.toList ++ ' ' :: '[' :: b.timer.toList ++ [']', ' ', '\x7b']

/-- A block as lines. -/
def written (b : Block) : List (List Char) :=
  b.writtenHeader :: b.transitions.map Transition.written ++ [['\x7d']]

end Block

/-- A variable as a line. -/
def writtenBinding (name value : String) : List Char :=
  name.toList ++ ' ' :: '=' :: ' ' :: Text.quoteChars value.toList

/-- The lines of variables and blocks. -/
def writtenLines (bindings : List (String × String)) (blocks : List Block) : List (List Char) :=
  bindings.map (fun e => writtenBinding e.1 e.2) ++ blocks.flatMap Block.written

/-- The text of a table. -/
def Table.written (t : Table) : String :=
  String.ofList (Text.unlines (writtenLines t.bindings.entries t.blocks))

end TaskTable
