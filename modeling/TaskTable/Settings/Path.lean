import TaskTable.Number.Digits
import TaskTable.Settings.Value

/-!
# Setting paths

The keys of a settings file and the names of variables are paths: names of fields with points
between them, and numbers of items in brackets. The case of a path does not matter.
-/

namespace TaskTable
namespace Settings

/-- One step of a path. -/
inductive Step
  | field (name : String)
  | item (n : Int)
  deriving DecidableEq, Repr

/-- The way from a value to one inside of it. -/
abbrev Path := List Step

namespace Path

/-! ## Reading -/

/-- A character of a name. -/
def isNameChar (c : Char) : Bool :=
  c.isAlphanum || c == '_' || c == '-' || c == ' '

/-- The step to a field. -/
def readField (s : List Char) : Option (Step × List Char) :=
  let name := s.takeWhile isNameChar
  if name.isEmpty then none
  else some (.field (String.ofList name), s.dropWhile isNameChar)

/-- A text without its leading blanks. -/
def skipBlanks (s : List Char) : List Char :=
  s.dropWhile fun c => c == ' ' || c == '\t'

/-- The step to an item, after its opening bracket: a whole number of 64 bits and the closing
bracket. -/
def readItem (s : List Char) : Option (Step × List Char) := do
  let s := skipBlanks s
  let negative := s.head? == some '-'
  let s := if negative then s.drop 1 else s
  let n ← Number.ofDigits? (s.takeWhile Char.isDigit)
  let n : Int := if negative then -(n : Int) else n
  if n < -(Number.twoPow 63 : Int) ∨ Number.twoPow 63 ≤ n then none
  else
    match skipBlanks (s.dropWhile Char.isDigit) with
    | ']' :: rest => return (.item n, rest)
    | _ => none

/-- The steps after the first one, at most `fuel` of them. -/
def readSteps : (fuel : Nat) → List Char → Option Path
  | _, [] => some []
  | 0, _ => none
  | fuel + 1, c :: rest => do
    let (step, rest) ←
      if c = '.' then readField rest else if c = '[' then readItem rest else none
    return step :: (← readSteps fuel rest)

/-- A path. -/
def read? (s : List Char) : Option Path := do
  let (step, rest) ← readField s
  return step :: (← readSteps rest.length rest)

/-- The path that a key stands for. A key that does not read as a path is the name of a field. -/
def ofKey (key : String) : Path :=
  let key := Value.lower key
  (read? key.toList).getD [.field key]

end Path

/-! ## Laying values over others -/

namespace Value

/-- A value with another one laid over what stands at the end of a path. Items are replaced. -/
def overlayAt (v new : Value) : Path → Value
  | [] => v.overlay new
  | [.item n] => v.setItem n new
  | .field name :: path => v.set name (overlayAt (v.getOrEmpty name) new path)
  | .item n :: path => v.setItem n (overlayAt (v.item n) new path)

/-- Settings with those of a file laid over them. The keys of the file are paths. -/
def overlayFile (base file : Value) : Value :=
  file.fields.foldl (fun v f => v.overlayAt f.2 (Path.ofKey f.1)) base

end Value
end Settings
end TaskTable
