import TaskTable.Number.Binary64

/-!
# Setting values

The values that settings are given as in files and in the environment. Tables are laid over one
another field by field, and the case of a field's name does not matter there.
-/

namespace TaskTable
namespace Settings

/-- A value as it is given. -/
inductive Value
  | nothing
  | bool (b : Bool)
  | int (n : Int)
  | real (x : Number.Binary64)
  | text (s : String)
  | list (items : List Value)
  | table (fields : List (String × Value))
  deriving Inhabited, Repr

namespace Value

/-! ## Fields -/

/-- A text in lower case. -/
def lower (s : String) : String :=
  String.ofList (s.toList.map Char.toLower)

/-- The fields of a table; anything else has none. -/
def fields : Value → List (String × Value)
  | table fs => fs
  | _ => []

/-- The value of a field. -/
def get? (v : Value) (key : String) : Option Value :=
  v.fields.lookup key

/-- The value of a field; an empty table if there is no such field. -/
def getOrEmpty (v : Value) (key : String) : Value :=
  (v.get? key).getD (table [])

/-- Fields with one of them replaced or added. -/
def putField (key : String) (value : Value) : List (String × Value) → List (String × Value)
  | [] => [(key, value)]
  | (k, v) :: rest => if k = key then (k, value) :: rest else (k, v) :: putField key value rest

/-- The value with a field set. A value that is no table becomes one. -/
def set (v : Value) (key : String) (value : Value) : Value :=
  table (putField key value v.fields)

mutual

/-- A value with another one laid over it: the fields of a table are laid over those of the same
name, and everything else is replaced. -/
def overlay (base : Value) : Value → Value
  | table fs => overlayFields base fs
  | other => other

/-- A value with fields laid over its own. -/
def overlayFields (base : Value) : List (String × Value) → Value
  | [] => base
  | (k, v) :: rest =>
    overlayFields (base.set (lower k) (overlay (base.getOrEmpty (lower k)) v)) rest

end

/-! ## Items -/

/-- The items of a list; anything else has none. -/
def items : Value → List Value
  | list vs => vs
  | _ => []

/-- Where the item with a number stands in a list of some length. Numbers below zero count from the
end. -/
def place (n : Int) (length : Nat) : Nat :=
  if 0 ≤ n then n.toNat else length - n.natAbs

/-- An item of a list. -/
def item (v : Value) (n : Int) : Value :=
  v.items.getD (place n v.items.length) nothing

/-- The value with an item set. A value that is no list becomes one, and a list that is too short is
filled up. -/
def setItem (v : Value) (n : Int) (value : Value) : Value :=
  let i := place n v.items.length
  list ((v.items ++ List.replicate (i + 1 - v.items.length) nothing).set i value)

/-! ## Records -/

/-- The values that a record with some fields consists of: a table has them by their names, each of
them or not, and a list has all of them in order. -/
def record? (names : List String) : Value → Option (List (String × Value))
  | table fs => some fs
  | list vs => if names.length ≤ vs.length then some (names.zip vs) else none
  | _ => none

end Value
end Settings
end TaskTable
