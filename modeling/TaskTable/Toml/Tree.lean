import TaskTable.Settings.Value

/-!
# TOML tables under construction

The tables of a document while its lines are read. How a table came about decides what may still be
added to it: a table is declared once, and keys with points never reach into a declared table.
-/

namespace TaskTable
namespace Toml

open Settings (Value)

/-- How a table came about. -/
inductive TableKind
  /-- It has a header of its own, or it is written as a value. -/
  | declared
  /-- The header of a table inside of it named it. -/
  | implied
  /-- A key with points named it. -/
  | dotted
  deriving DecidableEq, Repr

/-- What a key stands for. -/
inductive Node
  | value (v : Value)
  | table (kind : TableKind) (fields : List (String × Node))
  /-- A list of tables that have headers of their own, the last one apart. -/
  | tables (before : List (List (String × Node))) (last : List (String × Node))

/-- The fields of a table. -/
abbrev Fields := List (String × Node)

namespace Fields

/-- Fields with one of them replaced or added. -/
def put (key : String) (n : Node) : Fields → Fields
  | [] => [(key, n)]
  | (k, m) :: rest => if k = key then (k, n) :: rest else (k, m) :: put key n rest

/-- Fields with the table at the end of a path changed. Tables on the path that are not there yet
are made. A path of a key with points, which is `dotted`, goes through no declared table. -/
def within (dotted : Bool) (f : TableKind → Fields → Option Fields) :
    (path : List String) → TableKind → Fields → Option Fields
  | [], kind, fields => f kind fields
  | key :: path, _, fields =>
    match fields.lookup key with
    | none => do
      let kind := if dotted then .dotted else .implied
      let inner ← within dotted f path kind []
      return put key (.table kind inner) fields
    | some (.table kind inner) => do
      if dotted && kind == .declared then none
      else return put key (.table kind (← within dotted f path kind inner)) fields
    | some (.tables before last) => do
      return put key (.tables before (← within dotted f path .declared last)) fields
    | some (.value _) => none

/-- Fields with one more value, whose key stands at the end of a path of a key with points. -/
def addValue (fields : Fields) (path : List String) (key : String) (v : Value) : Option Fields :=
  within true (fun kind fields =>
    if (kind == .dotted) == path.isEmpty || (fields.lookup key).isSome then none
    else some (put key (.value v) fields)) path .declared fields

/-- Fields with a declared table. Only a table that was implied may have been there. -/
def addTable (fields : Fields) (path : List String) (key : String) (table : Fields) :
    Option Fields :=
  within false (fun _ fields =>
    match fields.lookup key with
    | none | some (.table .implied _) => some (put key (.table .declared table) fields)
    | _ => none) path .declared fields

/-- Fields with one more table of a list of tables. -/
def addItem (fields : Fields) (path : List String) (key : String) (table : Fields) :
    Option Fields :=
  within false (fun _ fields =>
    match fields.lookup key with
    | none => some (put key (.tables [] table) fields)
    | some (.tables before last) => some (put key (.tables (before ++ [last]) table) fields)
    | _ => none) path .declared fields

/-- The fields of the table at the end of a path, if it was implied. -/
def impliedAt : (path : List String) → Fields → Fields
  | [], _ => []
  | [key], fields =>
    match fields.lookup key with
    | some (.table .implied inner) => inner
    | _ => []
  | key :: path, fields =>
    match fields.lookup key with
    | some (.table _ inner) => impliedAt path inner
    | some (.tables _ last) => impliedAt path last
    | _ => []

end Fields

mutual

/-- The value that a node stands for. -/
def Node.toValue : Node → Value
  | .value v => v
  | .table _ fields => .table (Fields.toValues fields)
  | .tables before last => .list (Fields.listToValues before ++ [.table (Fields.toValues last)])

/-- The values that fields stand for. -/
def Fields.toValues : Fields → List (String × Value)
  | [] => []
  | (k, n) :: rest => (k, n.toValue) :: Fields.toValues rest

/-- The values that tables stand for. -/
def Fields.listToValues : List Fields → List Value
  | [] => []
  | fields :: rest => .table (Fields.toValues fields) :: Fields.listToValues rest

end

end Toml
end TaskTable
