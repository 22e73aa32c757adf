import TaskTable.Number.Hexadecimal
import TaskTable.Settings.Lenient

/-!
# RON documents

A notation of records: `(name: value)` is a record and `{key: value}` a map, which are both tables
here, and `(value, value)` is a list like `[value, value]`. A record may have a name before it,
which says nothing.
-/

namespace TaskTable
namespace Ron

open Settings (Value)

/-! ## Blanks and names -/

/-- A character that may stand between tokens. -/
def isBlank (c : Char) : Bool :=
  [' ', '\n', '\t', '\r'].contains c

/-- The text after blanks and comments, where `depth` comments that are closed by a mark are open
around it. -/
def skipGap (depth : Nat) (inLine : Bool) : List Char → Option (List Char)
  | [] => if depth = 0 then some [] else none
  | '/' :: '*' :: rest =>
    if inLine then skipGap depth true rest else skipGap (depth + 1) false rest
  | '*' :: '/' :: rest =>
    if inLine then skipGap depth true rest
    else if depth = 0 then some ('*' :: '/' :: rest)
    else skipGap (depth - 1) false rest
  | c :: rest =>
    if inLine then skipGap depth (c ≠ '\n') rest
    else if depth > 0 ∨ isBlank c then skipGap depth false rest
    else
      match c, rest with
      | '/', '/' :: rest => skipGap depth true rest
      | c, rest => some (c :: rest)

/-- The text after blanks and comments. -/
def skipBlanks (s : List Char) : Option (List Char) :=
  skipGap 0 false s

/-- A character of a name. -/
def isNameChar (c : Char) : Bool :=
  c.isAlphanum || c == '_'

/-- A character of a name that is marked as one. -/
def isMarkedChar (c : Char) : Bool :=
  isNameChar c || c == '.' || c == '+' || c == '-'

/-- A name: without its mark it starts with no digit, and no character follows it that only a marked
name has. -/
def readName (s : List Char) : Option (String × List Char) :=
  match s with
  | 'r' :: '#' :: rest =>
    let name := rest.takeWhile isMarkedChar
    if name.isEmpty then none else some (String.ofList name, rest.dropWhile isMarkedChar)
  | 'r' :: '"' :: _ => none
  | s =>
    let name := s.takeWhile isNameChar
    let rest := s.dropWhile isNameChar
    if name.isEmpty || name.head?.any Char.isDigit || rest.head?.any isMarkedChar then none
    else some (String.ofList name, rest)

/-! ## Texts -/

/-- The character that an escape stands for, after its backslash. -/
def readEscape : List Char → Option (Char × List Char)
  | 'n' :: rest => some ('\n', rest)
  | 'r' :: rest => some ('\r', rest)
  | 't' :: rest => some ('\t', rest)
  | '0' :: rest => some ('\x00', rest)
  | '\\' :: rest => some ('\\', rest)
  | '"' :: rest => some ('"', rest)
  | '\'' :: rest => some ('\'', rest)
  | 'x' :: a :: b :: rest => (Number.charOfHex? [a, b]).map (·, rest)
  | 'u' :: '\x7b' :: rest =>
    let ds := rest.takeWhile (Number.isDigitOf 16)
    match rest.dropWhile (Number.isDigitOf 16) with
    | '\x7d' :: rest =>
      if ds.isEmpty || ds.length > 6 then none else (Number.charOfHex? ds).map (·, rest)
    | _ => none
  | _ => none

/-- A text up to its closing quote, of at most `fuel` characters. -/
def readText : (fuel : Nat) → List Char → Option (List Char × List Char)
  | 0, _ => none
  | _ + 1, [] => none
  | _ + 1, '"' :: rest => some ([], rest)
  | fuel + 1, '\\' :: rest => do
    let (c, rest) ← readEscape rest
    let (cs, rest) ← readText fuel rest
    return (c :: cs, rest)
  | fuel + 1, c :: rest => (readText fuel rest).map fun (cs, rest) => (c :: cs, rest)

/-- A text without escapes up to its closing mark. -/
def readRaw (mark : List Char) : List Char → Option (List Char × List Char)
  | [] => none
  | c :: rest =>
    if mark.isPrefixOf (c :: rest) then some ([], (c :: rest).drop mark.length)
    else (readRaw mark rest).map fun (cs, rest) => (c :: cs, rest)

/-- A text without escapes, after the letter that announces it. Signs around its quotes let it hold
quotes. -/
def readRawText (s : List Char) : Option (List Char × List Char) :=
  let signs := s.takeWhile (· == '#')
  match s.dropWhile (· == '#') with
  | '"' :: rest => readRaw ('"' :: signs) rest
  | _ => none

/-- A text of one character, after its opening quote. -/
def readChar : List Char → Option (Char × List Char)
  | '\\' :: rest => do
    match ← readEscape rest with
    | (c, '\'' :: rest) => return (c, rest)
    | _ => none
  | c :: '\'' :: rest => if c = '\'' then none else some (c, rest)
  | _ => none

/-! ## Numbers -/

/-- A character of a number to the base ten. -/
def isNumberChar (c : Char) : Bool :=
  c.isDigit || ['.', 'e', 'E', '+', '-', '_'].contains c

/-- A whole number to a base, which may have underscores after its first digit. -/
def readWhole (base : Nat) (s : List Char) : Option (Nat × List Char) :=
  let isPart (c : Char) : Bool := Number.isDigitOf base c || c == '_'
  let ds := s.takeWhile isPart
  if ds.isEmpty || ds.head? == some '_' then none
  else some (Number.ofDigitsOf base (ds.filter (· ≠ '_')), s.dropWhile isPart)

/-- The base of a whole number and its digits. -/
def baseOf : List Char → Nat × List Char
  | '0' :: 'x' :: ds => (16, ds)
  | '0' :: 'o' :: ds => (8, ds)
  | '0' :: 'b' :: ds => (2, ds)
  | ds => (10, ds)

/-- A whole number. One to the base ten may have more than 64 bits. -/
def readInt (negative : Bool) (s : List Char) : Option (Value × List Char) := do
  let (base, ds) := baseOf s
  let (n, rest) ← readWhole base ds
  let n : Int := if negative then -n else n
  if -(Number.twoPow 63 : Int) ≤ n ∧ n < Number.twoPow 63 then return (.int n, rest)
  else if base = 10 ∨ (0 < n ∧ n < Number.twoPow 64) then
    return (.real (Value.realOfInt n), rest)
  else none

/-- A number. -/
def readNumber (s : List Char) : Option (Value × List Char) :=
  let sign := s.takeWhile fun c => c == '+' || c == '-'
  let negative := sign == ['-']
  let body := s.drop sign.length
  if sign.length > 1 then none
  else if "inf".toList.isPrefixOf body then
    some (.real (Value.infinite negative), body.drop 3)
  else if "NaN".toList.isPrefixOf body then
    some (.real (Value.notANumber negative), body.drop 3)
  else
    let text := body.takeWhile isNumberChar
    let isReal := text.any fun c => c == '.' || c == 'e' || c == 'E' || c == '+' || c == '-'
    if isReal then
      (Value.realOfText? (String.ofList (sign ++ text))).map fun x =>
        (.real x, body.dropWhile isNumberChar)
    else readInt negative body

/-! ## Values -/

/-- Values up to a closing mark, with commas between them. At most `fuel` values are read. -/
def readItems (item : List Char → Option (Value × List Char)) (close : Char) :
    (fuel : Nat) → List Char → Option (List Value × List Char)
  | 0, _ => none
  | fuel + 1, s => do
    match ← skipBlanks s with
    | [] => none
    | c :: rest =>
      if c = close then return ([], rest)
      else
        let (v, rest) ← item (c :: rest)
        match ← skipBlanks rest with
        | ',' :: rest =>
          let (vs, rest) ← readItems item close fuel rest
          return (v :: vs, rest)
        | c :: rest => if c = close then return ([v], rest) else none
        | [] => none

/-- Keys with their values up to a closing mark, laid over the ones before them. At most `fuel` of
them are read. -/
def readFields (key : List Char → Option (String × List Char))
    (item : List Char → Option (Value × List Char)) (close : Char) :
    (fuel : Nat) → List (String × Value) → List Char → Option (List (String × Value) × List Char)
  | 0, _, _ => none
  | fuel + 1, fields, s => do
    match ← skipBlanks s with
    | [] => none
    | c :: rest =>
      if c = close then return (fields, rest)
      else
        let (k, rest) ← key (c :: rest)
        match ← skipBlanks rest with
        | ':' :: rest =>
          let (v, rest) ← item (← skipBlanks rest)
          let fields := Value.putField k v fields
          match ← skipBlanks rest with
          | ',' :: rest => readFields key item close fuel fields rest
          | c :: rest => if c = close then return (fields, rest) else none
          | [] => none
        | _ => none

/-- Whether a record with named fields comes, rather than a list of values. -/
def startsRecord (s : List Char) : Option Bool := do
  match readName (← skipBlanks s) with
  | some (_, rest) => return (← skipBlanks rest).head? == some ':'
  | none => return false

/-- The key of a map: a text. -/
def readKey (item : List Char → Option (Value × List Char)) (s : List Char) :
    Option (String × List Char) := do
  match ← item s with
  | (.text k, rest) => return (k, rest)
  | _ => none

/-- A record or a list of values, after its opening mark. -/
def readRecord (item : List Char → Option (Value × List Char)) (size : Nat) (s : List Char) :
    Option (Value × List Char) := do
  if ← startsRecord s then
    let (fields, rest) ← readFields readName item ')' size [] s
    return (.table fields, rest)
  else
    let (vs, rest) ← readItems item ')' size s
    return (.list vs, rest)

/-- A value that starts with a word: a truth value, a number, a value that may be missing, or a
record. -/
def readNamed (item : List Char → Option (Value × List Char)) (size : Nat) (name : String)
    (s : List Char) : Option (Value × List Char) := do
  if name = "true" then return (.bool true, s)
  else if name = "false" then return (.bool false, s)
  else if name = "None" then return (.nothing, s)
  else if name = "inf" then return (.real (Value.infinite false), s)
  else if name = "NaN" then return (.real (Value.notANumber false), s)
  else
    match ← skipBlanks s with
    | '(' :: rest =>
      if name = "Some" then
        let (v, rest) ← item (← skipBlanks rest)
        match ← skipBlanks rest with
        | ')' :: rest => return (v, rest)
        | ',' :: rest =>
          match ← skipBlanks rest with
          | ')' :: rest => return (v, rest)
          | _ => none
        | _ => none
      else readRecord item size rest
    | _ => if name = "Some" then none else return (.nothing, s)

/-- A value with less than `levels` levels of nesting. No text, list or table in it is longer than
`size`. -/
def readValue (size : Nat) : (levels : Nat) → List Char → Option (Value × List Char)
  | 0, _ => none
  | levels + 1, s =>
    let item := readValue size levels
    match s with
    | '(' :: ')' :: rest => some (.nothing, rest)
    | '(' :: rest => readRecord item size rest
    | '[' :: rest => (readItems item ']' size rest).map fun (vs, rest) => (.list vs, rest)
    | '\x7b' :: rest =>
      (readFields (readKey item) item '\x7d' size [] rest).map fun (fields, rest) =>
        (.table fields, rest)
    | '"' :: rest => (readText size rest).map fun (cs, rest) => (.text (String.ofList cs), rest)
    | '\'' :: rest => (readChar rest).map fun (c, rest) => (.text (String.ofList [c]), rest)
    | s =>
      match readName s, s with
      | some (name, rest), _ => readNamed item size name rest
      | none, 'r' :: rest =>
        (readRawText rest).map fun (cs, rest) => (.text (String.ofList cs), rest)
      | none, s => readNumber s

/-- The extensions of the notation that a document may ask for. None of them changes what is
read. -/
def extensions : List String :=
  ["unwrap_newtypes", "implicit_some", "unwrap_variant_newtypes"]

/-- The text after the names of extensions with commas between them. At most `fuel` names are
read. -/
def skipExtensions : (fuel : Nat) → List Char → Option (List Char)
  | 0, _ => none
  | fuel + 1, s => do
    let (name, rest) ← readName s
    if !extensions.contains name then none
    else
      match ← skipBlanks rest with
      | ',' :: rest =>
        match ← skipBlanks rest with
        | ')' :: rest => return rest
        | rest => skipExtensions fuel rest
      | ')' :: rest => return rest
      | _ => none

/-- The text after a mark and the blanks behind it. -/
def skipMark (mark : String) (s : List Char) : Option (List Char) :=
  if mark.toList.isPrefixOf s then skipBlanks (s.drop mark.length) else none

/-- The text after what a document asks for. At most `fuel` lists of extensions are read. -/
def skipHeader (size : Nat) : (fuel : Nat) → List Char → Option (List Char)
  | 0, _ => none
  | fuel + 1, s => do
    match ← skipBlanks s with
    | '#' :: rest =>
      let s ← skipMark "(" (← skipMark "enable" (← skipMark "[" (← skipMark "!" rest)))
      skipHeader size fuel (← skipMark "]" (← skipBlanks (← skipExtensions size s)))
    | rest => return rest

/-- The value that a document writes. Nothing in a text is longer or deeper than the text. -/
def ofText? (s : String) : Option Value := do
  let text := s.toList
  let size := text.length + 1
  let (v, rest) ← readValue size size (← skipHeader size size text)
  match ← skipBlanks rest with
  | [] => return v
  | _ => none

end Ron
end TaskTable
