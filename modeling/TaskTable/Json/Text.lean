import TaskTable.Json.Draft
import TaskTable.Number.Hexadecimal
import TaskTable.Number.Scaled

/-!
# JSON text

The compact and the indented written form of a value, and the value that a text writes. Reading
accepts blanks between tokens; more than 127 levels of nesting are no value.
-/

namespace TaskTable
namespace Json

/-! ## Writing -/

/-- A character inside a written string. Only the quote, the backslash and the control characters
below U+0020 are escaped. -/
def escape (c : Char) : List Char :=
  if c = '"' then ['\\', '"']
  else if c = '\\' then ['\\', '\\']
  else if c = '\n' then ['\\', 'n']
  else if c = '\r' then ['\\', 'r']
  else if c = '\t' then ['\\', 't']
  else if c = '\x08' then ['\\', 'b']
  else if c = '\x0c' then ['\\', 'f']
  else if c.toNat < 0x20 then
    ['\\', 'u', '0', '0', Number.hexDigit (c.toNat / 16), Number.hexDigit (c.toNat % 16)]
  else [c]

/-- A string with its quotes. -/
def quoted (s : String) : List Char :=
  '"' :: s.toList.flatMap escape ++ ['"']

/-- A whole number. -/
def intText (n : Int) : List Char :=
  (if n < 0 then ['-'] else []) ++ Number.digits n.natAbs

mutual

/-- The compact form of a value: no blanks between tokens. -/
def compact : Json → List Char
  | null => "null".toList
  | bool true => "true".toList
  | bool false => "false".toList
  | int n => intText n
  | real x => x.toJsonText
  | str s => quoted s
  | arr items => '[' :: compactItems items ++ [']']
  | obj fields => '\x7b' :: compactFields fields ++ ['\x7d']

/-- Values with commas between them. -/
def compactItems : List Json → List Char
  | [] => []
  | [a] => compact a
  | a :: b :: rest => compact a ++ ',' :: compactItems (b :: rest)

/-- Fields with commas between them. -/
def compactFields : List (String × Json) → List Char
  | [] => []
  | [(k, a)] => quoted k ++ ':' :: compact a
  | (k, a) :: b :: rest => quoted k ++ ':' :: compact a ++ ',' :: compactFields (b :: rest)

end

/-- The compact form of a value, as a text. -/
def toText (j : Json) : String :=
  String.ofList j.compact

/-- The start of a line at a level of nesting, two blanks for each level. -/
def newline (level : Nat) : List Char :=
  '\n' :: List.replicate (2 * level) ' '

mutual

/-- The indented form of a value that stands at a level of nesting. -/
def indented (level : Nat) : Json → List Char
  | arr [] => ['[', ']']
  | arr (a :: rest) => '[' :: indentedItems (level + 1) (a :: rest) ++ newline level ++ [']']
  | obj [] => ['\x7b', '\x7d']
  | obj (a :: rest) =>
    '\x7b' :: indentedFields (level + 1) (a :: rest) ++ newline level ++ ['\x7d']
  | null => compact null
  | bool b => compact (bool b)
  | int n => compact (int n)
  | real x => compact (real x)
  | str s => compact (str s)

/-- Values on lines of their own. -/
def indentedItems (level : Nat) : List Json → List Char
  | [] => []
  | [a] => newline level ++ indented level a
  | a :: b :: rest => newline level ++ indented level a ++ ',' :: indentedItems level (b :: rest)

/-- Fields on lines of their own. -/
def indentedFields (level : Nat) : List (String × Json) → List Char
  | [] => []
  | [(k, a)] => newline level ++ quoted k ++ ':' :: ' ' :: indented level a
  | (k, a) :: b :: rest =>
    newline level ++ quoted k ++ ':' :: ' ' :: indented level a
      ++ ',' :: indentedFields level (b :: rest)

end

/-- The indented form of a value, as a text. -/
def toIndentedText (j : Json) : String :=
  String.ofList (j.indented 0)

/-! ## Reading -/

/-- The text after any blanks between tokens. -/
def skipBlanks (s : List Char) : List Char :=
  s.dropWhile fun c => [' ', '\n', '\t', '\r'].contains c

/-- Four hexadecimal digits. -/
def readUnit (s : List Char) : Option (Nat × List Char) :=
  let ds := s.take 4
  if ds.length = 4 ∧ ds.all (Number.isDigitOf 16) then some (Number.ofDigitsOf 16 ds, s.drop 4)
  else none

/-- Whether a unit is the first half of a pair. -/
def isLead (unit : Nat) : Bool :=
  0xD800 ≤ unit && unit < 0xDC00

/-- Whether a unit is the second half of a pair. -/
def isTrail (unit : Nat) : Bool :=
  0xDC00 ≤ unit && unit < 0xE000

/-- The character that a pair of units stands for. -/
def charOfPair (lead trail : Nat) : Char :=
  Char.ofNat (0x10000 + (lead - 0xD800) * 0x400 + (trail - 0xDC00))

/-- The character after a backslash; `none` in its place is half of a pair of units that stands
alone. A character beyond U+FFFF is written as two units. -/
def readEscape : List Char → Option (Option Char × List Char)
  | '"' :: rest => some ('"', rest)
  | '\\' :: rest => some ('\\', rest)
  | '/' :: rest => some ('/', rest)
  | 'b' :: rest => some ('\x08', rest)
  | 'f' :: rest => some ('\x0c', rest)
  | 'n' :: rest => some ('\n', rest)
  | 'r' :: rest => some ('\r', rest)
  | 't' :: rest => some ('\t', rest)
  | 'u' :: rest => do
    let (unit, rest) ← readUnit rest
    if isLead unit then
      match rest with
      | '\\' :: 'u' :: more =>
        let (next, more) ← readUnit more
        if isTrail next then return (charOfPair unit next, more) else return (none, rest)
      | _ => return (none, rest)
    else if isTrail unit then return (none, rest)
    else return (Char.ofNat unit, rest)
  | _ => none

/-- The characters of a string up to its closing quote, of at most `fuel` characters; `none` in
their place if half of a pair stands alone. -/
def readChars : (fuel : Nat) → List Char → Option (Option (List Char) × List Char)
  | 0, _ => none
  | _ + 1, [] => none
  | fuel + 1, c :: rest =>
    if c = '"' then some (some [], rest)
    else if c = '\\' then do
      let (d, rest) ← readEscape rest
      let (ds, rest) ← readChars fuel rest
      return (d.bind fun d => ds.map (d :: ·), rest)
    else if c.toNat < 0x20 then none
    else do
      let (ds, rest) ← readChars fuel rest
      return (ds.map (c :: ·), rest)

/-- A string of at most `fuel` characters, once its opening quote has been read. -/
def readString (fuel : Nat) (s : List Char) : Option (Option String × List Char) := do
  let (cs, rest) ← readChars fuel s
  return (cs.map String.ofList, rest)

/-- The exponent of a number, if it has one. -/
def readExponent (s : List Char) : Option (Option Int × List Char) :=
  match s with
  | [] => some (none, [])
  | e :: rest =>
    if e = 'e' ∨ e = 'E' then
      let (negative, rest) :=
        match rest with
        | '-' :: rest => (true, rest)
        | '+' :: rest => (false, rest)
        | rest => (false, rest)
      let ds := rest.takeWhile Char.isDigit
      if ds.isEmpty then none
      else
        let n : Int := Number.ofDigits ds
        some (some (if negative then -n else n), rest.dropWhile Char.isDigit)
    else some (none, e :: rest)

/-- The places of a number, if it has any. -/
def readPlaces (s : List Char) : Option (List Char × List Char) :=
  match s with
  | '.' :: rest =>
    let ds := rest.takeWhile Char.isDigit
    if ds.isEmpty then none else some (ds, rest.dropWhile Char.isDigit)
  | rest => some ([], rest)

/-- The value of a number that is written with a sign, digits, places and an exponent. -/
def Draft.ofNumber (negative : Bool) (whole places : List Char) (exponent : Option Int) : Draft :=
  let n := Number.ofDigits whole
  let isWhole := places.isEmpty && exponent.isNone
  if isWhole && !negative && n < Number.twoPow 64 then int n
  else if isWhole && negative && 0 < n && n ≤ Number.twoPow 63 then int (-n)
  else
    ((Number.Binary64.ofDigits? negative whole places (exponent.getD 0)).map real).getD faulty

/-- A number: an optional sign, digits without leading zeros, places and an exponent. -/
def readNumber (s : List Char) : Option (Draft × List Char) := do
  let (negative, s) :=
    match s with
    | '-' :: rest => (true, rest)
    | rest => (false, rest)
  let whole := s.takeWhile Char.isDigit
  if whole.isEmpty || (whole.length > 1 && whole.head? == some '0') then none
  else
    let (places, rest) ← readPlaces (s.dropWhile Char.isDigit)
    let (exponent, rest) ← readExponent rest
    return (Draft.ofNumber negative whole places exponent, rest)

/-- A value that holds no other: a word, a number or a string of at most `fuel` characters. -/
def readScalar (fuel : Nat) (s : List Char) : Option (Draft × List Char) :=
  match s with
  | 'n' :: 'u' :: 'l' :: 'l' :: rest => some (.null, rest)
  | 't' :: 'r' :: 'u' :: 'e' :: rest => some (.bool true, rest)
  | 'f' :: 'a' :: 'l' :: 's' :: 'e' :: rest => some (.bool false, rest)
  | '"' :: rest =>
    (readString fuel rest).map fun (t, rest) => ((t.map Draft.str).getD .faulty, rest)
  | s => readNumber s

/-- The items of an array, once the first is known to come: items with commas between them, up to
the closing bracket. At most `fuel` items are read. -/
def readItems (item : List Char → Option (Draft × List Char)) :
    (fuel : Nat) → List Char → Option (List Draft × List Char)
  | 0, _ => none
  | fuel + 1, s => do
    let (a, rest) ← item s
    match skipBlanks rest with
    | ']' :: rest => return ([a], rest)
    | ',' :: rest =>
      let (as, rest) ← readItems item fuel rest
      return (a :: as, rest)
    | _ => none

/-- The fields of an object, once the first is known to come; `none` in their place if a key is
faulty. At most `fuel` fields are read, with keys of at most `size` characters. -/
def readFields (item : List Char → Option (Draft × List Char)) (size : Nat) :
    (fuel : Nat) → List Char → Option (Option (List (String × Draft)) × List Char)
  | 0, _ => none
  | fuel + 1, s =>
    match skipBlanks s with
    | '"' :: rest => do
      let (k, rest) ← readString size rest
      match skipBlanks rest with
      | ':' :: rest =>
        let (a, rest) ← item rest
        match skipBlanks rest with
        | '\x7d' :: rest => return (k.map fun k => [(k, a)], rest)
        | ',' :: rest =>
          let (as, rest) ← readFields item size fuel rest
          return (k.bind fun k => as.map ((k, a) :: ·), rest)
        | _ => none
      | _ => none
    | _ => none

/-- A value with at most `fuel` levels of nesting, after any blanks, of which `levels` are no fault.
No string, array or object in it is longer than `size`. -/
def readValue (size : Nat) : (fuel levels : Nat) → List Char → Option (Draft × List Char)
  | 0, _, _ => none
  | fuel + 1, levels, s =>
    match skipBlanks s with
    | '[' :: rest =>
      match skipBlanks rest with
      | ']' :: rest => some (if levels = 0 then .faulty else .arr [], rest)
      | rest =>
        (readItems (readValue size fuel (levels - 1)) size rest).map fun (as, rest) =>
          (if levels = 0 then .faulty else .arr as, rest)
    | '\x7b' :: rest =>
      match skipBlanks rest with
      | '\x7d' :: rest => some (if levels = 0 then .faulty else .obj [], rest)
      | rest =>
        (readFields (readValue size fuel (levels - 1)) size size rest).map fun (as, rest) =>
          (if levels = 0 then .faulty else (as.map Draft.obj).getD .faulty, rest)
    | s => readScalar size s

/-- What a text writes. Nothing in a text is longer or deeper than the text. -/
def Draft.ofText? (s : String) : Option Draft :=
  let text := s.toList
  let size := text.length + 1
  match readValue size size 127 text with
  | some (d, rest) => if (skipBlanks rest).isEmpty then some d else none
  | none => none

/-- The value that a text writes. -/
def ofText? (s : String) : Option Json :=
  (Draft.ofText? s).bind Draft.toJson?

end Json
end TaskTable
