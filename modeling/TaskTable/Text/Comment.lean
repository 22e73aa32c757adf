/-!
# Comments

A `#` starts a comment that runs to the end of its line, unless it stands inside a quoted value.
Either quote character opens a quoted value, and the same character closes it.
-/

namespace TaskTable
namespace Text

/-- A line up to its first `#` outside quotes, when the quote `q` is open at its start. -/
def stripCommentFrom : (q : Option Char) → List Char → List Char
  | _, [] => []
  | none, c :: cs =>
    if c = '#' then []
    else if c = '\'' ∨ c = '"' then c :: stripCommentFrom (some c) cs
    else c :: stripCommentFrom none cs
  | some q, c :: cs =>
    if c = q then c :: stripCommentFrom none cs else c :: stripCommentFrom (some q) cs

/-- A line without its comment. -/
def stripComment (line : List Char) : List Char :=
  stripCommentFrom none line

end Text
end TaskTable
