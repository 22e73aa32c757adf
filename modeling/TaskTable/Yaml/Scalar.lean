import TaskTable.Number.Hexadecimal
import TaskTable.Yaml.Cursor

/-!
# YAML scalars

The texts of a document: plain ones, ones in quotes, and blocks of lines. A single end of a line
inside of a plain or quoted text is a space, and of several ends in a row the first one is dropped.
-/

namespace TaskTable
namespace Yaml

/-- What a number of ends of lines stand for between two words. -/
def fold : (breaks : Nat) → List Char
  | 0 => []
  | 1 => [' ']
  | n + 2 => List.replicate (n + 1) '\n'

/-! ## Plain texts -/

/-- Whether a plain text goes on with the character at a place. A colon before a gap ends it, and so
do the marks between brackets where there are brackets around it. -/
def isPlain (inFlow : Bool) (c : Cursor) : Bool :=
  if c.char = ':' then !isGap c.second && !(inFlow && isFlow c.second)
  else !isGap c.char && !(inFlow && isFlow c.char)

/-- The characters of one word of a plain text. -/
def readWord (inFlow : Bool) : (fuel : Nat) → Cursor → List Char × Cursor
  | 0, c => ([], c)
  | fuel + 1, c =>
    if isPlain inFlow c then
      let (cs, next) := readWord inFlow fuel (c.skip 1)
      (c.char :: cs, next)
    else ([], c)

/-- The blanks and ends of lines after a word: what they stand for, and the place after them.
`spaces` are the blanks read in the line of the word, and `breaks` counts the ends of lines. In a
line that is not empty no tab may stand before column `indent`. -/
def skipPlainGap (size : Nat) (indent : Int) (spaces : List Char) (breaks : Nat) :
    (fuel : Nat) → Cursor → Option (List Char × Cursor)
  | 0, _ => none
  | fuel + 1, c =>
    if isBlank c.char then
      if !c.leading then skipPlainGap size indent (spaces ++ [c.char]) breaks fuel c.skipBlank
      else if c.column < indent ∧ c.char = '\t' then do
        let (_, c) ← c.skipLine {} size
        if isLineEnd c.char then skipPlainGap size indent spaces breaks fuel c else none
      else skipPlainGap size indent spaces breaks fuel c.skipBlank
    else if isBreak c.char then skipPlainGap size indent [] (breaks + 1) fuel c.skipBreak
    else some (if breaks = 0 then spaces else fold breaks, c)

/-- A plain text after the gap in front of its next word, with at most `fuel` words. Outside of
brackets it ends at a line that starts before column `indent`. -/
def readPlain (size : Nat) (inFlow : Bool) (indent : Int) (gap : List Char) :
    (fuel : Nat) → Cursor → Option (List Char × Cursor)
  | 0, _ => none
  | fuel + 1, c =>
    if c.isDocumentMark ∨ c.char = '#' then some ([], c)
    else if inFlow ∧ c.char = '-' ∧ isFlow c.second then none
    else
      let (word, next) := readWord inFlow size c
      let word := if word.isEmpty then [] else gap ++ word
      if !(isBlank next.char || isBreak next.char) then some (word, next)
      else do
        let (gap, next) ← skipPlainGap size indent [] 0 size next
        if !inFlow ∧ next.column < indent then return (word, next)
        else
          let (cs, next) ← readPlain size inFlow indent gap fuel next
          return (word ++ cs, next)

/-! ## Texts in quotes -/

/-- The characters with an escape of one letter. -/
def escapes : List (Char × Char) :=
  [('0', '\x00'), ('a', '\x07'), ('b', '\x08'), ('t', '\t'), ('\t', '\t'), ('n', '\n'),
    ('v', '\x0b'), ('f', '\x0c'), ('r', '\r'), ('e', '\x1b'), (' ', ' '), ('"', '"'), ('/', '/'),
    ('\\', '\\'), ('N', '\u0085'), ('_', '\u00a0'), ('L', '\u2028'), ('P', '\u2029')]

/-- The number of hexadecimal digits after a letter that announces them. -/
def escapeWidth? (c : Char) : Option Nat :=
  [('x', 2), ('u', 4), ('U', 8)].lookup c

/-- The character that an escape stands for, from its backslash on. -/
def readEscape (c : Cursor) : Option (Char × Cursor) :=
  match escapes.lookup c.second with
  | some d => some (d, c.skip 2)
  | none => do
    let width ← escapeWidth? c.second
    let ds := (c.rest.drop 2).take width
    if ds.length = width then return (← Number.charOfHex? ds, c.skip (2 + width)) else none

/-- The characters of a quoted text up to a gap or to its closing quote, and whether a backslash
before an end of a line stands there. -/
def readQuotedWord (quote : Char) : (fuel : Nat) → Cursor → Option (List Char × Bool × Cursor)
  | 0, _ => none
  | fuel + 1, c =>
    if isGap c.char then some ([], false, c)
    else if quote = '\'' ∧ c.char = '\'' ∧ c.second = '\'' then do
      let (cs, joins, next) ← readQuotedWord quote fuel (c.skip 2)
      return ('\'' :: cs, joins, next)
    else if c.char = quote then some ([], false, c)
    else if quote = '"' ∧ c.char = '\\' then
      if isBreak c.second then some ([], true, (c.skip 1).skipBreak)
      else do
        let (d, next) ← readEscape c
        let (cs, joins, next) ← readQuotedWord quote fuel next
        return (d :: cs, joins, next)
    else do
      let (cs, joins, next) ← readQuotedWord quote fuel (c.skip 1)
      return (c.char :: cs, joins, next)

/-- The blanks and ends of lines after a word: what they stand for, and the place after them. After
a backslash, which `joins` lines, ends of lines stand for themselves. -/
def skipQuotedGap (indent : Int) (joins : Bool) (spaces : List Char) (breaks : Nat) :
    (fuel : Nat) → Cursor → Option (List Char × Cursor)
  | 0, _ => none
  | fuel + 1, c =>
    if isBlank c.char then
      if !joins ∧ breaks = 0 then
        skipQuotedGap indent joins (spaces ++ [c.char]) breaks fuel c.skipBlank
      else if c.char = '\t' ∧ c.column < indent then none
      else skipQuotedGap indent joins spaces breaks fuel c.skipBlank
    else if isBreak c.char then skipQuotedGap indent joins spaces (breaks + 1) fuel c.skipBreak
    else if joins then some (List.replicate breaks '\n', c)
    else some (if breaks = 0 then spaces else fold breaks, c)

/-- A quoted text up to its closing quote, of at most `fuel` words. No line of it starts before
column `indent`. -/
def readQuoted (size : Nat) (quote : Char) (indent : Int) :
    (fuel : Nat) → Cursor → Option (List Char × Cursor)
  | 0, _ => none
  | fuel + 1, c =>
    if c.isDocumentMark || c.atEnd || c.column < indent then none
    else do
      let (word, joins, next) ← readQuotedWord quote size c
      if next.char = quote then return (word, next.skip 1)
      else
        let (gap, next) ← skipQuotedGap indent joins [] 0 size next
        let (cs, next) ← readQuoted size quote indent fuel next
        return (word ++ gap ++ cs, next)

/-! ## Blocks of lines -/

/-- What becomes of the ends of lines after a block. -/
inductive Chomping
  /-- One of them is kept. -/
  | clip
  | strip
  | keep
  deriving DecidableEq, Repr

/-- The chomping that a sign asks for. -/
def Chomping.ofSign? (c : Char) : Option Chomping :=
  if c = '+' then some .keep else if c = '-' then some .strip else none

/-- The indentation that a digit asks for; it is not zero. -/
def increment? (c : Char) : Option Nat :=
  if c.isDigit && c ≠ '0' then some (c.toNat - '0'.toNat) else none

/-- The sign and the digit in the header of a block, in any order. -/
def readHeader (c : Cursor) : Option (Chomping × Option Nat × Cursor) :=
  match Chomping.ofSign? c.char with
  | some chomping =>
    if c.second.isDigit then (increment? c.second).map fun n => (chomping, some n, c.skip 2)
    else some (chomping, none, c.skip 1)
  | none =>
    if c.char.isDigit then
      (increment? c.char).map fun n =>
        match Chomping.ofSign? c.second with
        | some chomping => (chomping, some n, c.skip 2)
        | none => (.clip, some n, c.skip 1)
    else some (.clip, none, c)

/-- The place after empty lines and after spaces before column `indent`, and the number of empty
lines. -/
def skipIndent (indent : Nat) (breaks : Nat) : (fuel : Nat) → Cursor → Nat × Cursor
  | 0, c => (breaks, c)
  | fuel + 1, c =>
    if c.char = ' ' ∧ c.column < indent then skipIndent indent breaks fuel c.skipBlank
    else if isBreak c.char then skipIndent indent (breaks + 1) fuel c.skipBreak
    else (breaks, c)

/-- The place after empty lines and spaces, the number of empty lines, and the last column
reached. -/
def skipFirstIndent (widest breaks : Nat) : (fuel : Nat) → Cursor → Nat × Nat × Cursor
  | 0, c => (widest, breaks, c)
  | fuel + 1, c =>
    if c.char = ' ' then skipFirstIndent widest breaks fuel c.skipBlank
    else
      let widest := max widest c.column
      if isBreak c.char then skipFirstIndent widest (breaks + 1) fuel c.skipBreak
      else (widest, breaks, c)

/-- How the lines of a block are put together. -/
structure Block where
  /-- Whether ends of lines stand for themselves. -/
  literal : Bool
  chomping : Chomping
  /-- The column that its lines start in. -/
  indent : Nat

/-- What the end of the line before a line and `empty` empty lines before it stand for. -/
def Block.between (b : Block) (afterBlank beforeBlank : Bool) (empty : Nat) : List Char :=
  if b.literal || afterBlank || beforeBlank then List.replicate (empty + 1) '\n'
  else fold (empty + 1)

/-- The lines of a block from a place on, and what ends it. `before` tells of the line before, if
there is one, whether it starts with a blank; `empty` empty lines follow it. -/
def readLines (size : Nat) (b : Block) (before : Option Bool) (empty : Nat) :
    (fuel : Nat) → Cursor → List Char × Cursor
  | 0, c => ([], c)
  | fuel + 1, c =>
    if c.column = b.indent ∧ !c.atEnd ∧ !(b.indent = 0 ∧ c.isDocumentMark) then
      let isIndented := isBlank c.char
      let gap :=
        match before with
        | some afterBlank => b.between afterBlank isIndented empty
        | none => List.replicate empty '\n'
      let (line, next) := c.takeWhile fun d => !isLineEnd d
      if next.atEnd then
        let ending := if b.chomping ≠ .strip ∧ max b.indent 1 ≤ next.column then ['\n'] else []
        (gap ++ line ++ ending, next)
      else
        let (empty, next) := skipIndent b.indent 0 size next.skipBreak
        let (cs, next) := readLines size b (some isIndented) empty fuel next
        (gap ++ line ++ cs, next)
    else
      let isLate := c.atEnd ∧ max b.indent 1 ≤ c.column
      let ending := if before.isSome then ['\n'] else []
      let ending := ending ++ if isLate then ['\n'] else []
      let kept := List.replicate empty '\n'
      match b.chomping with
      | .strip => ([], c)
      | .clip => (ending, c)
      | .keep => (ending ++ kept, c)

/-- A block of lines from its mark on, inside of a block whose indentation is `outer`. -/
def readBlock (size : Nat) (literal : Bool) (outer : Int) (start : Cursor) :
    Option (List Char × Cursor) := do
  let (chomping, increment, c) ← readHeader (start.skip 1)
  let (_, c) ← c.skipLine {} size
  if !isLineEnd c.char then none
  else
    let c := if c.atEnd then c else c.skipBreak
    if c.char = '\t' then none
    else
      let (indent, empty, c) :=
        match increment with
        | some n =>
          let indent := (max outer 0).toNat + n
          let (empty, c) := skipIndent indent 0 size c
          (indent, empty, c)
        | none =>
          let (widest, empty, c) := skipFirstIndent 0 0 size c
          let least := (outer + 1).toNat
          (max widest least, empty, c)
      if c.atEnd then
        let text :=
          if chomping = .strip ∨ c.line = start.line then []
          else if chomping = .keep ∧ 0 < empty then List.replicate empty '\n'
          else ['\n']
        return (text, c)
      else if c.column < indent ∧ outer < c.column then none
      else return readLines size ⟨literal, chomping, indent⟩ none empty size c

end Yaml
end TaskTable
