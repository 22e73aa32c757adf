import TaskTable.Number.Binary64
import TaskTable.Settings.Lenient
import TaskTable.Toml.Moment
import TaskTable.Toml.Text
import TaskTable.Toml.Tree

/-!
# TOML values

The written forms of values: truth values, numbers, moments, texts, lists and tables in a line. A
moment is read as a table with its mark.
-/

namespace TaskTable
namespace Toml

open Settings (Value)
open Number (Binary64)

/-! ## Numbers -/

/-- Digits, with single underscores between them. -/
def readDigits (isDigit : Char → Bool) (start : Bool) : List Char → List Char × List Char
  | [] => ([], [])
  | [c] => if isDigit c then ([c], []) else ([], [c])
  | c :: d :: rest =>
    if isDigit c then
      let (ds, rest) := readDigits isDigit false (d :: rest)
      (c :: ds, rest)
    else if !start && c == '_' && isDigit d then
      let (ds, rest) := readDigits isDigit false rest
      (d :: ds, rest)
    else ([], c :: d :: rest)

/-- A whole number to a base other than ten. It must have 63 bits. -/
def readBased (base : Nat) (s : List Char) : Option (Value × List Char) :=
  let (ds, rest) := readDigits (Number.isDigitOf base) true s
  let n := Number.ofDigitsOf base ds
  if ds.isEmpty || n ≥ Number.twoPow 63 then none else some (.int n, rest)

/-- A sign, if there is one. -/
def readSign : List Char → Bool × List Char
  | '-' :: rest => (true, rest)
  | '+' :: rest => (false, rest)
  | rest => (false, rest)

/-- The digits of a whole number: no zero stands before another digit. -/
def readWhole (s : List Char) : Option (List Char × List Char) :=
  match s with
  | '0' :: rest => some (['0'], rest)
  | s =>
    let (ds, rest) := readDigits Char.isDigit true s
    if ds.isEmpty then none else some (ds, rest)

/-- The places of a number, if it has any. -/
def readPlaces (s : List Char) : Option (List Char × List Char) :=
  match s with
  | '.' :: rest =>
    let (ds, rest) := readDigits Char.isDigit true rest
    if ds.isEmpty then none else some (ds, rest)
  | rest => some ([], rest)

/-- The exponent of a number, if it has one. -/
def readExponent (s : List Char) : Option (Option Int × List Char) :=
  match s with
  | [] => some (none, [])
  | e :: rest =>
    if e = 'e' ∨ e = 'E' then
      let (negative, rest) := readSign rest
      let (ds, rest) := readDigits Char.isDigit true rest
      let n : Int := Number.ofDigits ds
      if ds.isEmpty then none else some (some (if negative then -n else n), rest)
    else some (none, e :: rest)

/-- A number to the base ten. A whole number must have 64 bits, and no other number may be beyond
the largest upwards. -/
def readDecimal (s : List Char) : Option (Value × List Char) := do
  let (negative, s) := readSign s
  match s with
  | 'i' :: 'n' :: 'f' :: rest => return (.real (Value.infinite negative), rest)
  | 'n' :: 'a' :: 'n' :: rest => return (.real (Value.notANumber negative), rest)
  | s =>
    let (whole, rest) ← readWhole s
    let (places, rest) ← readPlaces rest
    let (exponent, rest) ← readExponent rest
    if places.isEmpty && exponent.isNone then
      let n : Int := Number.ofDigits whole
      let n := if negative then -n else n
      if -(Number.twoPow 63 : Int) ≤ n ∧ n < Number.twoPow 63 then return (.int n, rest) else none
    else
      match Binary64.ofDecimal? negative (Number.ofDigits (whole ++ places))
        (exponent.getD 0 - places.length) with
      | some x => return (.real x, rest)
      | none => if negative then return (.real (Value.infinite true), rest) else none

/-- A number. -/
def readNumber : List Char → Option (Value × List Char)
  | '0' :: 'x' :: rest => readBased 16 rest
  | '0' :: 'o' :: rest => readBased 8 rest
  | '0' :: 'b' :: rest => readBased 2 rest
  | s => readDecimal s

/-! ## Keys -/

/-- A character of a key without quotes. -/
def isKeyChar (c : Char) : Bool :=
  c.isAlphanum || c == '-' || c == '_'

/-- One part of a key. -/
def readName (s : List Char) : Option (String × List Char) :=
  match s with
  | '"' :: rest =>
    (readLineText '"' (rest.length + 1) rest).map fun (cs, rest) => (String.ofList cs, rest)
  | '\'' :: rest =>
    (readLineText '\'' (rest.length + 1) rest).map fun (cs, rest) => (String.ofList cs, rest)
  | s =>
    let name := s.takeWhile isKeyChar
    if name.isEmpty then none else some (String.ofList name, s.dropWhile isKeyChar)

/-- A key of at most `parts` parts with points between them: the path to its last part, that part,
and the text after the key and its blanks. -/
def readParts : (parts : Nat) → List Char → Option (List String × String × List Char)
  | 0, _ => none
  | parts + 1, s => do
    let (name, rest) ← readName (skipBlanks s)
    match skipBlanks rest with
    | '.' :: rest =>
      let (path, key, rest) ← readParts parts rest
      return (name :: path, key, rest)
    | rest => return ([], name, rest)

/-- A key, which has less than 80 parts. -/
def readKey (s : List Char) : Option (List String × String × List Char) :=
  readParts 79 s

/-! ## Values -/

/-- The text after blanks, ends of lines and comments. -/
def skipGap (comment : Bool) : List Char → List Char
  | [] => []
  | '\r' :: '\n' :: rest => skipGap false rest
  | c :: rest =>
    if c = '\n' then skipGap false rest
    else if comment then if isPrintable c then skipGap true rest else c :: rest
    else if c = '#' then skipGap true rest
    else if c = ' ' ∨ c = '\t' then skipGap false rest
    else c :: rest

/-- A value that holds no other. -/
def readScalar (s : List Char) : Option (Value × List Char) :=
  match s with
  | 't' :: 'r' :: 'u' :: 'e' :: rest => some (.bool true, rest)
  | 'f' :: 'a' :: 'l' :: 's' :: 'e' :: rest => some (.bool false, rest)
  | '"' :: _ | '\'' :: _ => (readText s).map fun (t, rest) => (.text t, rest)
  | s =>
    match Moment.read s with
    | some (t, rest) => some (Moment.mark t, rest)
    | none => readNumber s

/-- The items of a list up to its closing bracket. At most `fuel` items are read. -/
def readItems (item : List Char → Option (Value × List Char)) :
    (fuel : Nat) → List Char → Option (List Value × List Char)
  | 0, _ => none
  | fuel + 1, s =>
    match skipGap false s with
    | ']' :: rest => some ([], rest)
    | s => do
      let (v, rest) ← item s
      match skipGap false rest with
      | ']' :: rest => return ([v], rest)
      | ',' :: rest =>
        let (vs, rest) ← readItems item fuel rest
        return (v :: vs, rest)
      | _ => none

/-- A key, an equals sign and a value. -/
def readPair (item : List Char → Option (Value × List Char)) (s : List Char) :
    Option ((List String × String × Value) × List Char) := do
  let (path, key, rest) ← readKey s
  match rest with
  | '=' :: rest =>
    let (v, rest) ← item (skipBlanks rest)
    return ((path, key, v), rest)
  | _ => none

/-- The fields of a table in a line, once the first is known to come, up to the closing brace. At
most `fuel` fields are read. -/
def readFields (item : List Char → Option (Value × List Char)) :
    (fuel : Nat) → Fields → List Char → Option (Fields × List Char)
  | 0, _, _ => none
  | fuel + 1, fields, s => do
    let ((path, key, v), rest) ← readPair item s
    let fields ← fields.addValue path key v
    match skipBlanks rest with
    | '\x7d' :: rest => return (fields, rest)
    | ',' :: rest => readFields item fuel fields rest
    | _ => none

/-- A value with at most `levels` levels of nesting. -/
def readValue : (levels : Nat) → List Char → Option (Value × List Char)
  | 0, s => readScalar s
  | levels + 1, s =>
    match s with
    | '[' :: rest =>
      (readItems (readValue levels) (rest.length + 1) rest).map fun (vs, rest) => (.list vs, rest)
    | '\x7b' :: rest =>
      match skipBlanks rest with
      | '\x7d' :: rest => some (.table [], rest)
      | rest =>
        (readFields (readValue levels) (rest.length + 1) [] rest).map fun (fields, rest) =>
          (.table fields.toValues, rest)
    | s => readScalar s

end Toml
end TaskTable
