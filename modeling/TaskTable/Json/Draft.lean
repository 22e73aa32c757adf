import TaskTable.Json.Basic

/-!
# JSON as written

What a text writes before it is known which parts of it are asked for. A part may have the form of a
value and still be none: a text with half of a pair of units, a number beyond the largest, nesting
beyond the limit. Such a part does no harm where it is passed over.
-/

namespace TaskTable
namespace Json

/-- A value as it is written. -/
inductive Draft
  | null
  | bool (b : Bool)
  | int (n : Int)
  | real (x : Number.Binary64)
  | str (s : String)
  | arr (items : List Draft)
  | obj (fields : List (String × Draft))
  /-- A part that has the form of a value and is none. -/
  | faulty
  deriving Inhabited, Repr

namespace Draft

mutual

/-- The value as it would be written. -/
def ofJson : Json → Draft
  | .null => null
  | .bool b => bool b
  | .int n => int n
  | .real x => real x
  | .str s => str s
  | .arr items => arr (ofItems items)
  | .obj fields => obj (ofFields fields)

/-- Every value of a list as it would be written. -/
def ofItems : List Json → List Draft
  | [] => []
  | a :: as => ofJson a :: ofItems as

/-- Every value of a list of fields as it would be written. -/
def ofFields : List (String × Json) → List (String × Draft)
  | [] => []
  | (k, a) :: as => (k, ofJson a) :: ofFields as

end

mutual

/-- The value that is written, if no part of it is faulty. -/
def toJson? : Draft → Option Json
  | null => some .null
  | bool b => some (.bool b)
  | int n => some (.int n)
  | real x => some (.real x)
  | str s => some (.str s)
  | arr items => (toItems? items).map .arr
  | obj fields => (toFields? fields).map .obj
  | faulty => none

/-- The values that are written, if no part of them is faulty. -/
def toItems? : List Draft → Option (List Json)
  | [] => some []
  | a :: as => do return (← toJson? a) :: (← toItems? as)

/-- The fields that are written, if no part of them is faulty. -/
def toFields? : List (String × Draft) → Option (List (String × Json))
  | [] => some []
  | (k, a) :: as => do return (k, ← toJson? a) :: (← toFields? as)

end

end Draft
end Json
end TaskTable
