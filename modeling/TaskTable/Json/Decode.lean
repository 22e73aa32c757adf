import TaskTable.Json.Draft
import TaskTable.Time.Instant

/-!
# Decoding JSON

The readers that the stored forms of tables, recordings and tasks are put together from. A record is
read from an object by its field names, where unknown fields are passed over, or from an array by
the places of its fields. An optional field may be missing; any other must be there, and once only.
What is passed over may be faulty.
-/

namespace TaskTable
namespace Json
namespace Draft

/-- A natural number below `bound`. -/
def toNat? (bound : Nat) : Draft → Option Nat
  | int n => if 0 ≤ n ∧ n < bound then some n.toNat else none
  | _ => none

/-- A number of 32 bits. -/
def toWord32? : Draft → Option Nat :=
  toNat? (Number.twoPow 32)

/-- A number of 64 bits. -/
def toWord64? : Draft → Option Nat :=
  toNat? (Number.twoPow 64)

/-- A truth value. -/
def toBool? : Draft → Option Bool
  | bool b => some b
  | _ => none

/-- A text. -/
def toString? : Draft → Option String
  | str s => some s
  | _ => none

/-- A list. -/
def toList? {α : Type} (f : Draft → Option α) : Draft → Option (List α)
  | arr items => items.mapM f
  | _ => none

/-- A map with text keys; of two fields with one name the later one counts. -/
def toMap? {α : Type} (f : Draft → Option α) : Draft → Option (SortedMap String α)
  | obj fields => (fields.mapM fun e => (f e.2).map fun b => (e.1, b)).map SortedMap.ofList
  | _ => none

/-- An optional value: `null` is none. -/
def toOption? {α : Type} (f : Draft → Option α) : Draft → Option (Option α)
  | null => some none
  | a => (f a).map some

/-- A name out of a fixed set: a text, or an object that binds the name to `null`. -/
def toName? : Draft → Option String
  | str s => some s
  | obj [(s, null)] => some s
  | _ => none

/-- The written form of an instant. -/
def toInstant? : Draft → Option Instant
  | str s => Instant.ofText? s
  | _ => none

/-- A record with the given fields, as a list of what stands in each. From an object, a field that
is not there reads as none; one that is there twice is refused. -/
def toRecord? (names : List String) : Draft → Option (List (Option Draft))
  | obj fields =>
    names.mapM fun name =>
      match fields.filter fun e => e.1 == name with
      | [] => some none
      | [e] => some (some e.2)
      | _ => none
  | arr items => if items.length = names.length then some (items.map some) else none
  | _ => none

/-- A field that must be there. -/
def required {α : Type} (f : Draft → Option α) (field : Option Draft) : Option α :=
  field.bind f

/-- A field that may be missing. -/
def optional {α : Type} (f : Draft → Option α) : Option Draft → Option (Option α)
  | none => some none
  | some a => toOption? f a

end Draft
end Json

/-- The stored form of an instant. -/
def Instant.toJson (t : Instant) : Json :=
  .str t.toText

end TaskTable
