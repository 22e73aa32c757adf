import TaskTable.Number.Digits
import TaskTable.Number.Hexadecimal
import TaskTable.Settings.Value

/-!
# TOML texts

The four written forms of a text. Texts in double quotes have escapes and texts in single quotes
have none; texts in three quotes go over several lines. Writing takes the plainest form that a text
has.
-/

namespace TaskTable
namespace Toml

/-! ## Reading -/

/-- A character that may stand for itself in a line. -/
def isPrintable (c : Char) : Bool :=
  c == '\t' || (c.toNat ≥ 0x20 && c.toNat ≠ 0x7f)

/-- A text without its leading blanks. -/
def skipBlanks (s : List Char) : List Char :=
  s.dropWhile fun c => c == ' ' || c == '\t'

/-- The text after the end of a line. -/
def newline? : List Char → Option (List Char)
  | '\n' :: rest => some rest
  | '\r' :: '\n' :: rest => some rest
  | _ => none

/-- The character that an escape stands for, after its backslash. -/
def readEscape : List Char → Option (Char × List Char)
  | 'b' :: rest => some ('\x08', rest)
  | 't' :: rest => some ('\t', rest)
  | 'n' :: rest => some ('\n', rest)
  | 'f' :: rest => some ('\x0c', rest)
  | 'r' :: rest => some ('\r', rest)
  | '"' :: rest => some ('"', rest)
  | '\\' :: rest => some ('\\', rest)
  | 'u' :: rest =>
    if rest.length < 4 then none else (Number.charOfHex? (rest.take 4)).map (·, rest.drop 4)
  | 'U' :: rest =>
    if rest.length < 8 then none else (Number.charOfHex? (rest.take 8)).map (·, rest.drop 8)
  | _ => none

/-- A text of one line up to its closing quote, of at most `fuel` characters. -/
def readLineText (quote : Char) : (fuel : Nat) → List Char → Option (List Char × List Char)
  | 0, _ => none
  | _ + 1, [] => none
  | fuel + 1, c :: rest =>
    if c = quote then some ([], rest)
    else if c = '\\' ∧ quote = '"' then do
      let (d, rest) ← readEscape rest
      let (ds, rest) ← readLineText quote fuel rest
      return (d :: ds, rest)
    else if isPrintable c then do
      let (ds, rest) ← readLineText quote fuel rest
      return (c :: ds, rest)
    else none

/-- The text after a backslash at the end of a line: the end of the line and all blanks and ends of
lines after it are passed over. -/
def afterContinuation? (s : List Char) : Option (List Char) :=
  (newline? (skipBlanks s)).map skipAll
where
  /-- A text without its leading blanks and ends of lines. -/
  skipAll : List Char → List Char
    | '\r' :: '\n' :: rest => skipAll rest
    | c :: rest => if c = ' ' ∨ c = '\t' ∨ c = '\n' then skipAll rest else c :: rest
    | [] => []

/-- A text of several lines up to its closing quotes, of at most `fuel` characters. Up to two quotes
may stand right before the closing ones. -/
def readLongText (quote : Char) : (fuel : Nat) → List Char → Option (List Char × List Char)
  | 0, _ => none
  | _ + 1, [] => none
  | fuel + 1, c :: rest =>
    if c = quote then
      let n := (rest.takeWhile (· == quote)).length + 1
      let kept := if n < 3 then n else min (n - 3) 2
      let rest := rest.drop (if n < 3 then n - 1 else kept + 2)
      let quotes := List.replicate kept quote
      if n < 3 then (readLongText quote fuel rest).map fun (ds, rest) => (quotes ++ ds, rest)
      else some (quotes, rest)
    else if c = '\\' ∧ quote = '"' then
      match afterContinuation? rest with
      | some rest => readLongText quote fuel rest
      | none => do
        let (d, rest) ← readEscape rest
        let (ds, rest) ← readLongText quote fuel rest
        return (d :: ds, rest)
    else
      match newline? (c :: rest) with
      | some rest => (readLongText quote fuel rest).map fun (ds, rest) => ('\n' :: ds, rest)
      | none =>
        if isPrintable c then
          (readLongText quote fuel rest).map fun (ds, rest) => (c :: ds, rest)
        else none

/-- A text in any form. -/
def readText (s : List Char) : Option (String × List Char) :=
  let long (quote : Char) (rest : List Char) :=
    readLongText quote (rest.length + 1) ((newline? rest).getD rest)
  let read :=
    match s with
    | '"' :: '"' :: '"' :: rest => long '"' rest
    | '\'' :: '\'' :: '\'' :: rest => long '\'' rest
    | '"' :: rest => readLineText '"' (rest.length + 1) rest
    | '\'' :: rest => readLineText '\'' (rest.length + 1) rest
    | _ => none
  read.map fun (cs, rest) => (String.ofList cs, rest)

/-! ## Writing -/

/-- The length of the longest run of a character. -/
def longestRun (q : Char) (s : List Char) : Nat :=
  (s.foldl (fun (best, run) c =>
    let run := if c = q then run + 1 else 0
    (max best run, run)) (0, 0)).1

/-- A character that no form without escapes has: a control character other than a tab and the end
of a line. -/
def needsEscape (c : Char) : Bool :=
  !isPrintable c && c ≠ '\n'

/-- A text with its escapes. In a text of several lines ends of lines stand for themselves, and so
do two quotes in a row. -/
def escape (long : Bool) : (quotes : Nat) → List Char → List Char
  | _, [] => []
  | quotes, c :: rest =>
    if c = '"' then
      if long ∧ quotes < 2 then '"' :: escape long (quotes + 1) rest
      else '\\' :: '"' :: escape long 0 rest
    else
      let written :=
        if c = '\\' then ['\\', '\\']
        else if c = '\x08' then ['\\', 'b']
        else if c = '\t' then ['\\', 't']
        else if c = '\n' then if long then ['\n'] else ['\\', 'n']
        else if c = '\x0c' then ['\\', 'f']
        else if c = '\r' then ['\\', 'r']
        else if needsEscape c then
          ['\\', 'u', '0', '0', (Number.hexDigit (c.toNat / 16)).toUpper,
            (Number.hexDigit (c.toNat % 16)).toUpper]
        else [c]
      written ++ escape long 0 rest

/-- A text in quotes: the first of these forms that it has without escapes: double quotes, single
quotes, three double quotes, three single quotes; otherwise double quotes with escapes. -/
def quoted (s : List Char) : List Char :=
  let control := s.any needsEscape
  let lines := s.contains '\n'
  let backslash := s.contains '\\'
  let newline := if lines then ['\n'] else []
  let double := ['"', '"', '"']
  let single := ['\'', '\'', '\'']
  if !control && !backslash && !lines && !s.contains '"' then '"' :: escape false 0 s ++ ['"']
  else if !control && !lines && !s.contains '\'' then '\'' :: s ++ ['\'']
  else if !control && !backslash && longestRun '"' s ≤ 2 then
    double ++ newline ++ escape true 0 s ++ double
  else if !control && longestRun '\'' s ≤ 2 then single ++ newline ++ s ++ single
  else if lines then double ++ newline ++ escape true 0 s ++ double
  else '"' :: escape false 0 s ++ ['"']

end Toml
end TaskTable
