import TaskTable.Text.Blank

/-!
# Quoted values

The written form of a value in tables, scripts and transcripts: bare when the value needs no
quotes, in double quotes when it holds a single quote, and in single quotes otherwise.
-/

namespace TaskTable
namespace Text

/-- The characters that have a meaning of their own in tables and scripts. -/
def isReserved (c : Char) : Bool :=
  ['{', '}', '[', ']', '#', '\'', '"', '='].contains c

/-- A value that can be written without quotes. -/
def isBare (v : List Char) : Bool :=
  !v.isEmpty && v.all fun c => !isBlank c && !isReserved c

/-- The written form of a value, as characters. -/
def quoteChars (v : List Char) : List Char :=
  if isBare v then v
  else if v.contains '\'' then '"' :: v ++ ['"']
  else '\'' :: v ++ ['\'']

/-- The written form of a value. -/
def quote (v : String) : String :=
  String.ofList (quoteChars v.toList)

end Text
end TaskTable
