import TaskTable.Number.Binary64
import TaskTable.SortedMap

/-!
# JSON values

The values of JSON. The fields of an object are kept as they are written, in order and with
repetitions; `Json.canonical` puts them into the form in which free data is stored, sorted and each
once.
-/

namespace TaskTable

/-- A JSON value. Whole numbers between `-2 ^ 63` and `2 ^ 64 - 1` are `int`; every other number is
`real`. -/
inductive Json
  | null
  | bool (b : Bool)
  | int (n : Int)
  | real (x : Number.Binary64)
  | str (s : String)
  | arr (items : List Json)
  | obj (fields : List (String × Json))
  deriving Inhabited, Repr

namespace Json

/-! ## Equality -/

mutual

/-- Whether two values are the same. -/
def decEq : (a b : Json) → Decidable (a = b)
  | null, null => .isTrue rfl
  | bool a, bool b => if h : a = b then .isTrue (h ▸ rfl) else .isFalse fun e => h (by cases e; rfl)
  | int a, int b => if h : a = b then .isTrue (h ▸ rfl) else .isFalse fun e => h (by cases e; rfl)
  | real a, real b => if h : a = b then .isTrue (h ▸ rfl) else .isFalse fun e => h (by cases e; rfl)
  | str a, str b => if h : a = b then .isTrue (h ▸ rfl) else .isFalse fun e => h (by cases e; rfl)
  | arr a, arr b =>
    match decEqItems a b with
    | .isTrue h => .isTrue (h ▸ rfl)
    | .isFalse h => .isFalse fun e => h (by cases e; rfl)
  | obj a, obj b =>
    match decEqFields a b with
    | .isTrue h => .isTrue (h ▸ rfl)
    | .isFalse h => .isFalse fun e => h (by cases e; rfl)
  | null, bool _ | null, int _ | null, real _ | null, str _ | null, arr _ | null, obj _
  | bool _, null | bool _, int _ | bool _, real _ | bool _, str _ | bool _, arr _ | bool _, obj _
  | int _, null | int _, bool _ | int _, real _ | int _, str _ | int _, arr _ | int _, obj _
  | real _, null | real _, bool _ | real _, int _ | real _, str _ | real _, arr _ | real _, obj _
  | str _, null | str _, bool _ | str _, int _ | str _, real _ | str _, arr _ | str _, obj _
  | arr _, null | arr _, bool _ | arr _, int _ | arr _, real _ | arr _, str _ | arr _, obj _
  | obj _, null | obj _, bool _ | obj _, int _ | obj _, real _ | obj _, str _ | obj _, arr _ =>
    .isFalse nofun

/-- Whether two lists of values are the same. -/
def decEqItems : (a b : List Json) → Decidable (a = b)
  | [], [] => .isTrue rfl
  | [], _ :: _ => .isFalse nofun
  | _ :: _, [] => .isFalse nofun
  | a :: as, b :: bs =>
    match decEq a b, decEqItems as bs with
    | .isTrue h, .isTrue hs => .isTrue (h ▸ hs ▸ rfl)
    | .isFalse h, _ => .isFalse fun e => h (by cases e; rfl)
    | _, .isFalse hs => .isFalse fun e => hs (by cases e; rfl)

/-- Whether two lists of fields are the same. -/
def decEqFields : (a b : List (String × Json)) → Decidable (a = b)
  | [], [] => .isTrue rfl
  | [], _ :: _ => .isFalse nofun
  | _ :: _, [] => .isFalse nofun
  | (k, a) :: as, (l, b) :: bs =>
    if hk : k = l then
      match decEq a b, decEqFields as bs with
      | .isTrue h, .isTrue hs => .isTrue (hk ▸ h ▸ hs ▸ rfl)
      | .isFalse h, _ => .isFalse fun e => h (by cases e; rfl)
      | _, .isFalse hs => .isFalse fun e => hs (by cases e; rfl)
    else .isFalse fun e => hk (by cases e; rfl)

end

instance : DecidableEq Json := decEq

/-! ## The canonical form of free data -/

mutual

/-- The value with the fields of every object sorted; of two fields with one name the later one
counts. -/
def canonical : Json → Json
  | arr items => arr (canonicalItems items)
  | obj fields => obj (SortedMap.ofList (canonicalFields fields)).entries
  | other => other

/-- Every value of a list in canonical form. -/
def canonicalItems : List Json → List Json
  | [] => []
  | a :: as => canonical a :: canonicalItems as

/-- Every value of a list of fields in canonical form. -/
def canonicalFields : List (String × Json) → List (String × Json)
  | [] => []
  | (k, a) :: as => (k, canonical a) :: canonicalFields as

end

/-! ## Building values -/

/-- A natural number. -/
def nat (n : Nat) : Json :=
  int n

/-- A value that may be missing, as `null`. -/
def option {α : Type} (f : α → Json) : Option α → Json
  | none => null
  | some a => f a

/-- A list of values. -/
def list {α : Type} (f : α → Json) (l : List α) : Json :=
  arr (l.map f)

/-- A map with text keys. -/
def map {α : Type} (f : α → Json) (m : SortedMap String α) : Json :=
  obj (m.entries.map fun e => (e.1, f e.2))

end Json

end TaskTable
