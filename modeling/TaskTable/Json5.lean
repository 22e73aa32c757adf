import TaskTable.Json.Text
import TaskTable.Settings.Lenient
import TaskTable.Text.Alphanumeric
import TaskTable.Text.Blank

/-!
# JSON5 documents

JSON as it is written by hand: with comments, names without quotes, texts in single quotes, commas
at the end of lists, and more ways to write numbers.
-/

namespace TaskTable
namespace Json5

open Settings (Value)
open Number (Binary64)

/-! ## Blanks -/

/-- A character that ends a line. -/
def isLineEnd (c : Char) : Bool :=
  c == '\n' || c == '\r' || c == '\u2028' || c == '\u2029'

/-- A character that may stand between tokens. -/
def isBlank (c : Char) : Bool :=
  c == '\ufeff' || (Text.isBlank c && c ≠ '\u0085')

/-- Where a reader of blanks stands. -/
inductive Gap
  | blank
  /-- In a comment that ends with its line. -/
  | lineComment
  /-- In a comment that ends with its closing mark. -/
  | longComment

/-- The text after blanks and comments; a comment that is not closed leaves nothing. -/
def skipGap (gap : Gap) : List Char → Option (List Char)
  | [] =>
    match gap with
    | .longComment => none
    | .blank | .lineComment => some []
  | c :: rest =>
    match gap with
    | .lineComment => skipGap (if isLineEnd c then .blank else .lineComment) rest
    | .longComment =>
      match c, rest with
      | '*', '/' :: rest => skipGap .blank rest
      | _, rest => skipGap .longComment rest
    | .blank =>
      match c, rest with
      | '/', '/' :: rest => skipGap .lineComment rest
      | '/', '*' :: rest => skipGap .longComment rest
      | c, rest => if isBlank c then skipGap .blank rest else some (c :: rest)

/-- The text after blanks and comments. -/
def skipBlanks (s : List Char) : Option (List Char) :=
  skipGap .blank s

/-! ## Texts -/

/-- A character given by one or by two units, after its backslash and `u`. -/
def readUnits (s : List Char) : Option (Char × List Char) := do
  let (unit, rest) ← Json.readUnit s
  if Json.isTrail unit then none
  else if Json.isLead unit then
    match rest with
    | '\\' :: 'u' :: rest =>
      let (next, rest) ← Json.readUnit rest
      if Json.isTrail next then return (Json.charOfPair unit next, rest) else none
    | _ => none
  else return (Char.ofNat unit, rest)

/-- The characters after a backslash: none at the end of a line. -/
def readEscape : List Char → Option (List Char × List Char)
  | 'u' :: rest => (readUnits rest).map fun (c, rest) => ([c], rest)
  | 'x' :: a :: b :: rest => (Number.charOfHex? [a, b]).map fun c => ([c], rest)
  | 'x' :: _ => none
  | '\r' :: '\n' :: rest => some ([], rest)
  | c :: rest =>
    if isLineEnd c then some ([], rest)
    else if c = '0' then some (['\x00'], rest)
    else if c.isDigit then none
    else if c = 'b' then some (['\x08'], rest)
    else if c = 'f' then some (['\x0c'], rest)
    else if c = 'n' then some (['\n'], rest)
    else if c = 'r' then some (['\r'], rest)
    else if c = 't' then some (['\t'], rest)
    else if c = 'v' then some (['\x0b'], rest)
    else some ([c], rest)
  | [] => none

/-- A text up to its closing quote, of at most `fuel` characters. -/
def readText (quote : Char) : (fuel : Nat) → List Char → Option (List Char × List Char)
  | 0, _ => none
  | _ + 1, [] => none
  | fuel + 1, c :: rest =>
    if c = quote then some ([], rest)
    else if c = '\\' then do
      let (cs, rest) ← readEscape rest
      let (ds, rest) ← readText quote fuel rest
      return (cs ++ ds, rest)
    else if isLineEnd c then none
    else (readText quote fuel rest).map fun (ds, rest) => (c :: ds, rest)

/-- Whether a character may start a name. -/
def isNameStart (c : Char) : Bool :=
  c == '$' || c == '_' || (Text.isAlphanumeric c && !c.isDigit)

/-- Whether a character may stand in a name after its start. -/
def isNamePart (c : Char) : Bool :=
  isNameStart c || c.isDigit || c == '\u200c' || c == '\u200d'

/-- A name without quotes, of at most `fuel` characters. -/
def readName (isPart : Char → Bool) : (fuel : Nat) → List Char → Option (List Char × List Char)
  | 0, _ => none
  | _ + 1, [] => some ([], [])
  | fuel + 1, '\\' :: 'u' :: rest => do
    let (c, rest) ← readUnits rest
    let (cs, rest) ← readName isNamePart fuel rest
    return (c :: cs, rest)
  | fuel + 1, c :: rest =>
    if isPart c then (readName isNamePart fuel rest).map fun (cs, rest) => (c :: cs, rest)
    else some ([], c :: rest)

/-- A key: a name or a text in quotes. -/
def readKey (size : Nat) (s : List Char) : Option (String × List Char) := do
  match s with
  | '"' :: rest =>
    let (cs, rest) ← readText '"' size rest
    return (String.ofList cs, rest)
  | '\'' :: rest =>
    let (cs, rest) ← readText '\'' size rest
    return (String.ofList cs, rest)
  | s =>
    let (cs, rest) ← readName isNameStart size s
    if cs.isEmpty then none else return (String.ofList cs, rest)

/-! ## Numbers -/

/-- A number without its sign. A number to the base sixteen has 32 bits and no sign; of the words a
plus may stand before none. A whole number has 64 bits, and no other number is beyond the
largest. -/
def readUnsigned (sign : Option Char) (s : List Char) : Option (Value × List Char) := do
  let negative := sign == some '-'
  match s with
  | 'I' :: 'n' :: 'f' :: 'i' :: 'n' :: 'i' :: 't' :: 'y' :: rest =>
    if sign = some '+' then none else return (.real (Value.infinite negative), rest)
  | 'N' :: 'a' :: 'N' :: rest =>
    if sign = some '+' then none else return (.real (Value.notANumber false), rest)
  | s =>
    let whole := s.takeWhile Char.isDigit
    let rest := s.dropWhile Char.isDigit
    if whole.length > 1 ∧ whole.head? = some '0' then none
    else
      let (places, rest) :=
        match rest with
        | '.' :: rest => (some (rest.takeWhile Char.isDigit), rest.dropWhile Char.isDigit)
        | rest => (none, rest)
      if whole.isEmpty && (places.getD []).isEmpty then none
      else
        let (exponent, rest) ← Json.readExponent rest
        if places.isNone && exponent.isNone then
          let n : Int := Number.ofDigits whole
          let n := if negative then -n else n
          if -(Number.twoPow 63 : Int) ≤ n ∧ n < Number.twoPow 63 then return (.int n, rest)
          else none
        else
          let places := places.getD []
          let x ← Binary64.ofDecimal? negative (Number.ofDigits (whole ++ places))
            (exponent.getD 0 - places.length)
          return (.real x, rest)

/-- A whole number to the base sixteen, after its mark: it has 32 bits. -/
def readHex (s : List Char) : Option (Value × List Char) :=
  let ds := s.takeWhile (Number.isDigitOf 16)
  let n := Number.ofDigitsOf 16 ds
  if ds.isEmpty ∨ n ≥ Number.twoPow 32 then none
  else some (.int n, s.dropWhile (Number.isDigitOf 16))

/-- A number. One to the base sixteen has no sign. -/
def readNumber : List Char → Option (Value × List Char)
  | '0' :: 'x' :: rest | '0' :: 'X' :: rest => readHex rest
  | '-' :: rest => readUnsigned (some '-') rest
  | '+' :: rest => readUnsigned (some '+') rest
  | s => readUnsigned none s

/-! ## Values -/

/-- A value that holds no other. -/
def readScalar (size : Nat) (s : List Char) : Option (Value × List Char) :=
  match s with
  | 'n' :: 'u' :: 'l' :: 'l' :: rest => some (.nothing, rest)
  | 't' :: 'r' :: 'u' :: 'e' :: rest => some (.bool true, rest)
  | 'f' :: 'a' :: 'l' :: 's' :: 'e' :: rest => some (.bool false, rest)
  | '"' :: rest => (readText '"' size rest).map fun (cs, rest) => (.text (String.ofList cs), rest)
  | '\'' :: rest => (readText '\'' size rest).map fun (cs, rest) => (.text (String.ofList cs), rest)
  | s => readNumber s

/-- The items of a list up to its closing bracket. At most `fuel` items are read. -/
def readItems (item : List Char → Option (Value × List Char)) :
    (fuel : Nat) → List Char → Option (List Value × List Char)
  | 0, _ => none
  | fuel + 1, s => do
    let (v, rest) ← item s
    match ← skipBlanks rest with
    | ']' :: rest => return ([v], rest)
    | ',' :: rest =>
      match ← skipBlanks rest with
      | ']' :: rest => return ([v], rest)
      | rest =>
        let (vs, rest) ← readItems item fuel rest
        return (v :: vs, rest)
    | _ => none

/-- The fields of a table up to its closing brace, laid over the ones before them. At most `fuel`
fields are read. -/
def readFields (item : List Char → Option (Value × List Char)) (size : Nat) :
    (fuel : Nat) → List (String × Value) → List Char → Option (List (String × Value) × List Char)
  | 0, _, _ => none
  | fuel + 1, fields, s => do
    let (k, rest) ← readKey size s
    match ← skipBlanks rest with
    | ':' :: rest =>
      let (v, rest) ← item (← skipBlanks rest)
      let fields := Value.putField k v fields
      match ← skipBlanks rest with
      | '\x7d' :: rest => return (fields, rest)
      | ',' :: rest =>
        match ← skipBlanks rest with
        | '\x7d' :: rest => return (fields, rest)
        | rest => readFields item size fuel fields rest
      | _ => none
    | _ => none

/-- A value with less than `levels` levels of nesting. No text, list or table in it is longer than
`size`. -/
def readValue (size : Nat) : (levels : Nat) → List Char → Option (Value × List Char)
  | 0, _ => none
  | levels + 1, s =>
    match s with
    | '[' :: rest => do
      match ← skipBlanks rest with
      | ']' :: rest => return (.list [], rest)
      | rest =>
        let (vs, rest) ← readItems (readValue size levels) size rest
        return (.list vs, rest)
    | '\x7b' :: rest => do
      match ← skipBlanks rest with
      | '\x7d' :: rest => return (.table [], rest)
      | rest =>
        let (fields, rest) ← readFields (readValue size levels) size size [] rest
        return (.table fields, rest)
    | s => readScalar size s

/-- The value that a document writes. Nothing in a text is longer or deeper than the text. -/
def ofText? (s : String) : Option Value := do
  let text := s.toList
  let size := text.length + 1
  let (v, rest) ← readValue size size (← skipBlanks text)
  match ← skipBlanks rest with
  | [] => return v
  | _ => none

end Json5
end TaskTable
