/-!
# Places in a YAML text

A place in a text, with its line and column, and the steps from it over characters, ends of lines,
blanks and comments. A text ends at its last character or in front of a NUL.
-/

namespace TaskTable
namespace Yaml

/-! ## Characters -/

/-- A space or a tab. -/
def isBlank (c : Char) : Bool :=
  c == ' ' || c == '\t'

/-- A character that ends a line. -/
def isBreak (c : Char) : Bool :=
  c == '\n' || c == '\r'

/-- What stands at the end of a text. -/
def endMark : Char := '\x00'

/-- An end of a line or of the text. -/
def isLineEnd (c : Char) : Bool :=
  isBreak c || c == endMark

/-- What separates words: a blank or an end. -/
def isGap (c : Char) : Bool :=
  isBlank c || isLineEnd c

/-- A character with a meaning of its own between brackets. -/
def isFlow (c : Char) : Bool :=
  [',', '[', ']', '\x7b', '\x7d'].contains c

/-! ## Places -/

/-- A place in a text. -/
structure Cursor where
  /-- The text from there on. -/
  rest : List Char
  /-- The number of characters before it. -/
  index : Nat := 0
  line : Nat := 0
  column : Nat := 0
  /-- Whether there are only blanks before it in its line. -/
  leading : Bool := true

namespace Cursor

/-- The character at a place. -/
def char (c : Cursor) : Char :=
  c.rest.headD endMark

/-- The character after the one at a place. -/
def second (c : Cursor) : Char :=
  (c.rest.drop 1).headD endMark

/-- Whether the text ends here. -/
def atEnd (c : Cursor) : Bool :=
  c.char == endMark

/-- The place after a blank. -/
def skipBlank (c : Cursor) : Cursor :=
  { c with rest := c.rest.drop 1, index := c.index + 1, column := c.column + 1 }

/-- The place after some characters that are not blank. -/
def skip (c : Cursor) (n : Nat) : Cursor :=
  { c with
    rest := c.rest.drop n, index := c.index + n, column := c.column + n, leading := false }

/-- The place after an end of a line. -/
def skipBreak (c : Cursor) : Cursor :=
  let n := if c.char = '\r' ∧ c.second = '\n' then 2 else 1
  { rest := c.rest.drop n, index := c.index + n, line := c.line + 1 }

/-- The place after all characters of a kind, and these characters. -/
def takeWhile (c : Cursor) (p : Char → Bool) : List Char × Cursor :=
  let cs := c.rest.takeWhile p
  (cs, if cs.isEmpty then c else c.skip cs.length)

/-- The place at the end of the line, as after a comment. -/
def skipComment (c : Cursor) : Cursor :=
  (c.takeWhile fun d => !isLineEnd d).2

/-- What was seen in front of a word or of the end of a line. -/
structure Seen where
  tab : Bool := false
  space : Bool := false

/-- The place after blanks and a comment, which a blank must separate from what is before it. At
most `fuel` blanks are read. -/
def skipLine (seen : Seen) : (fuel : Nat) → Cursor → Option (Seen × Cursor)
  | 0, _ => none
  | fuel + 1, c =>
    if c.char = ' ' then skipLine { seen with space := true } fuel c.skipBlank
    else if c.char = '\t' then skipLine { seen with tab := true } fuel c.skipBlank
    else if c.char = '#' then
      if seen.tab || seen.space then skipLine seen fuel c.skipComment else none
    else some (seen, c)

/-- Whether a mark of three characters stands at the start of a line. -/
def isMark (c : Cursor) (mark : Char) : Bool :=
  c.column == 0 && c.rest.take 3 == [mark, mark, mark] && isGap ((c.rest.drop 3).headD endMark)

/-- Whether the mark between two documents, or the one after a document, stands here. -/
def isDocumentMark (c : Cursor) : Bool :=
  c.isMark '-' || c.isMark '.'

end Cursor
end Yaml
end TaskTable
