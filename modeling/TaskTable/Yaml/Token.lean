/-!
# YAML tokens

The words and marks that a YAML text consists of. What its layout says by indentation and by colons
is written out in tokens of its own.
-/

namespace TaskTable
namespace Yaml

/-- A tag: what a node is said to be. -/
structure Tag where
  /-- The part up to the last exclamation mark. -/
  handle : String
  suffix : String
  deriving DecidableEq, Repr

/-- A token. -/
inductive Token
  /-- A line that tells the version of the format. -/
  | version
  /-- A line that tells what a handle of tags stands for. -/
  | tagHandle (handle target : String)
  | documentStart
  | documentEnd
  | blockListStart
  | blockTableStart
  | blockEnd
  | flowListStart
  | flowListEnd
  | flowTableStart
  | flowTableEnd
  /-- The dash before an item. -/
  | item
  /-- The comma between brackets. -/
  | comma
  /-- Before a key. -/
  | key
  /-- Before the value of a key. -/
  | value
  | anchor (name : String)
  /-- The node that has an anchor, once more. -/
  | reference (name : String)
  | tag (t : Tag)
  | scalar (isPlain : Bool) (text : String)
  deriving DecidableEq, Repr

/-- Whether a token says something about the node after it. -/
def Token.isProperty : Token → Bool
  | anchor _ | tag _ => true
  | _ => false

end Yaml
end TaskTable
