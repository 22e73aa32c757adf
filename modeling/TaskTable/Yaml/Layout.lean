import TaskTable.Text.Alphanumeric
import TaskTable.Yaml.Scalar
import TaskTable.Yaml.Token

/-!
# The layout of a YAML text

A text is read into tokens from its start to its end. Indentation opens and closes blocks, and a
word becomes a key only when the colon after it is reached; then its tokens are put in front of it.
-/

namespace TaskTable
namespace Yaml

/-- A place where a key may have started. -/
structure KeyPlace where
  /-- The number of tokens before it. -/
  tokens : Nat
  index : Nat
  line : Nat
  column : Nat
  /-- Whether nothing but a key may stand there. -/
  required : Bool

/-- A column that a block is indented to. -/
structure Indent where
  /-- The column of the block around it. -/
  outer : Int
  /-- Whether a token tells where the block ends. -/
  hasEnd : Bool

/-- A text while it is read. -/
structure Layout where
  cursor : Cursor
  /-- The tokens so far, the last one first. -/
  tokens : List Token := []
  /-- The number of tokens. -/
  count : Nat := 0
  /-- The column of the last token, if it says something about a node. -/
  propertyColumn : Option Nat := none
  /-- Whether a key may start. -/
  allowsKey : Bool := true
  /-- For every open bracket and for the blocks around all of them, innermost first, where a key may
  have started. -/
  keys : List (Option KeyPlace) := [none]
  /-- The column of the innermost block. -/
  indent : Int := -1
  indents : List Indent := []
  /-- The index at which a colon may follow a key in brackets without a gap after it. -/
  colonAt : Nat := 0
  /-- Whether the innermost table in brackets has been opened by a mark of its own. -/
  inFlowTable : Bool := false
  /-- For every open list in brackets, innermost first, whether a table without braces is open. -/
  openPairs : List Bool := []

namespace Layout

/-! ## Tokens -/

/-- Whether there are brackets around the place. -/
def inFlow (l : Layout) : Bool :=
  l.keys.length > 1

/-- The layout at another place. -/
def moveTo (l : Layout) (c : Cursor) : Layout :=
  { l with cursor := c }

/-- The layout with one more token. -/
def push (l : Layout) (t : Token) : Layout :=
  { l with tokens := t :: l.tokens, count := l.count + 1, propertyColumn := none }

/-- The layout with one more token after a number of tokens. -/
def insert (l : Layout) (before : Nat) (t : Token) : Layout :=
  let after := l.count - before
  { l with tokens := l.tokens.take after ++ t :: l.tokens.drop after, count := l.count + 1 }

/-- The layout after blanks and a comment in the line, and what was seen of them. -/
def skipLine (size : Nat) (l : Layout) : Option (Cursor.Seen × Layout) := do
  let (seen, c) ← l.cursor.skipLine {} size
  return (seen, l.moveTo c)

/-! ## Keys -/

/-- The layout where the place of a key is set for the innermost brackets. -/
def setKey (l : Layout) (k : Option KeyPlace) : Layout :=
  { l with keys := k :: l.keys.drop 1 }

/-- The place where a key may have started. -/
def key? (l : Layout) : Option KeyPlace :=
  (l.keys.head?).join

/-- The layout where a key may have started here. -/
def startKey (l : Layout) : Layout :=
  if l.allowsKey then
    let isBlock := (l.indents.head?).any Indent.hasEnd
    let c := l.cursor
    l.setKey (some
      { tokens := l.count, index := c.index, line := c.line, column := c.column
        required := !l.inFlow && l.indent == c.column && isBlock })
  else l

/-- The layout where no key has started, unless one had to. -/
def dropKey (l : Layout) : Option Layout :=
  if (l.key?).any KeyPlace.required then none else some (l.setKey none)

/-- The layout where no key has started that would be too long: outside of brackets a key lies in
one line and has at most 1024 characters. -/
def dropLongKey (l : Layout) : Option Layout :=
  match l.key? with
  | some k =>
    if !l.inFlow ∧ (k.line < l.cursor.line ∨ k.index + 1024 < l.cursor.index) then l.dropKey
    else some l
  | none => some l

/-! ## Blocks -/

/-- The layout where a block starts in a column, unless one is open there. Its token follows
`before` tokens, or all of them. -/
def openBlock (l : Layout) (column : Nat) (before : Option Nat) (t : Token) : Layout :=
  if l.inFlow then l
  else
    let l : Layout :=
      match l.indents with
      | ⟨outer, false⟩ :: indents =>
        if l.indent ≤ column then { l with indent := outer, indents } else l
      | _ => l
    if l.indent < column then
      let l := { l with indent := column, indents := ⟨l.indent, true⟩ :: l.indents }
      match before with
      | some n => l.insert n t
      | none => l.push t
    else l

/-- The layout without the blocks that are indented to beyond a column. -/
def closeBlocks (l : Layout) (column : Int) : Layout :=
  if l.inFlow then l else close l.indents l
where
  /-- Closes the blocks of some indents. -/
  close : List Indent → Layout → Layout
    | [], l => l
    | i :: indents, l =>
      if l.indent > column then
        let l := { l with indent := i.outer, indents }
        close indents (if i.hasEnd then l.push .blockEnd else l)
      else l

/-- The layout where what follows is indented by one column at least. -/
def indentByOne (l : Layout) : Layout :=
  if !l.inFlow ∧ (l.indents.head?).any Indent.hasEnd then
    { l with indent := l.indent + 1, indents := ⟨l.indent, false⟩ :: l.indents }
  else l

/-- The layout without the indents that are no blocks. -/
def dropIndents (l : Layout) : Layout :=
  drop l.indents l
where
  /-- Drops the first ones of some indents. -/
  drop : List Indent → Layout → Layout
    | ⟨outer, false⟩ :: indents, l => drop indents { l with indent := outer, indents }
    | _, l => l

/-! ## Gaps -/

/-- The layout in front of the next token. A tab does not indent what is in a block. -/
def skipGap (size : Nat) : (fuel : Nat) → Layout → Option Layout
  | 0, _ => none
  | fuel + 1, l =>
    let c := l.cursor
    if c.char = '\t' ∧ !l.indents.isEmpty ∧ c.leading ∧ c.column < l.indent then do
      let (_, l) ← l.skipLine size
      if isLineEnd l.cursor.char then skipGap size fuel l else none
    else if isBlank c.char then skipGap size fuel (l.moveTo c.skipBlank)
    else if isBreak c.char then
      skipGap size fuel { l with cursor := c.skipBreak, allowsKey := l.allowsKey || !l.inFlow }
    else if c.char = '#' then skipGap size fuel (l.moveTo c.skipComment)
    else some l

/-- The layout after the gap that must follow a question mark. -/
def skipKeyGap (started : Bool) : (fuel : Nat) → Layout → Option Layout
  | 0, _ => none
  | fuel + 1, l =>
    let c := l.cursor
    if c.char = ' ' then skipKeyGap true fuel (l.moveTo c.skipBlank)
    else if isBreak c.char then
      skipKeyGap true fuel
        { l with cursor := c.skipBreak, allowsKey := l.allowsKey || !l.inFlow }
    else if c.char = '#' then skipKeyGap started fuel (l.moveTo c.skipComment)
    else if started ∧ c.char ≠ '\t' then some l
    else none

/-! ## Directives and documents -/

/-- The layout outside of all blocks, where no key may start. -/
def leaveBlocks (l : Layout) : Option Layout := do
  let l ← (l.closeBlocks (-1)).dropKey
  return { l with allowsKey := false }

/-- A character of a word in a directive or in a handle. -/
def isWordChar (c : Char) : Bool :=
  c.isAlphanum || c == '_' || c == '-'

/-- A place after the blanks in its line. -/
def skipBlanks (c : Cursor) : Cursor :=
  c.skip (c.rest.takeWhile isBlank).length

/-- The handle of tags from its exclamation mark on. -/
def readHandle (c : Cursor) : String × Cursor :=
  let (word, next) := (c.skip 1).takeWhile isWordChar
  if next.char = '!' then (String.ofList ('!' :: word ++ ['!']), next.skip 1)
  else (String.ofList ('!' :: word), next)

/-- A character of a tag that is written out. -/
def isTagChar (c : Char) : Bool :=
  isWordChar c || "#;/?:@&=+$,_.!~*'()[]%".toList.contains c

/-- The token of a directive after its name. -/
def readDirective (name : List Char) (c : Cursor) : Option (Token × Cursor) :=
  let c := skipBlanks c
  if name = "YAML".toList then
    let (major, c) := c.takeWhile Char.isDigit
    let (minor, next) := (c.skip 1).takeWhile Char.isDigit
    if major.isEmpty || minor.isEmpty || c.char ≠ '.' || major.length > 9 || minor.length > 9 then
      none
    else some (.version, next)
  else if name = "TAG".toList then
    if c.char ≠ '!' then none
    else
      let (handle, next) := readHandle c
      let (target, last) := (skipBlanks next).takeWhile isTagChar
      let isWhole := handle = "!" || handle.endsWith "!"
      if isWhole && isBlank next.char && !target.isEmpty && isGap last.char then
        some (.tagHandle handle (String.ofList target), last)
      else none
  else some (.tagHandle "" "", c.skipComment)

/-- The layout after a directive. -/
def directive (size : Nat) (l : Layout) : Option Layout := do
  let l ← l.leaveBlocks
  let (name, c) := (l.cursor.skip 1).takeWhile isWordChar
  if name.isEmpty || !isGap c.char then none
  else
    let (t, c) ← readDirective name c
    let (_, l) ← (l.moveTo c).skipLine size
    if isLineEnd l.cursor.char then return (l.moveTo l.cursor.skipBreak).push t else none

/-- The layout after a mark of three characters. -/
def documentMark (l : Layout) (t : Token) : Option Layout := do
  let l ← l.leaveBlocks
  return (l.moveTo (l.cursor.skip 3)).push t

/-! ## Brackets -/

/-- The layout after a bracket opens. There may be 255 open brackets. -/
def openFlow (size : Nat) (l : Layout) (t : Token) : Option Layout := do
  let l := l.startKey.indentByOne
  if l.keys.length > 255 then none
  else
    let l := { l with
      cursor := l.cursor.skip 1, keys := none :: l.keys, allowsKey := true
      inFlowTable := l.inFlowTable || t == Token.flowTableStart
      openPairs := if t = Token.flowListStart then false :: l.openPairs else l.openPairs }
    let (_, l) ← l.skipLine size
    return l.push t

/-- The layout where a table without braces ends, if one is open in the innermost list. -/
def closePair (l : Layout) : Layout :=
  match l.openPairs with
  | true :: openPairs =>
    { l with inFlowTable := false, openPairs := false :: openPairs }.push .flowTableEnd
  | _ => l

/-- The layout after a bracket closes. -/
def closeFlow (size : Nat) (l : Layout) (t : Token) : Option Layout := do
  let l ← l.dropKey
  let l := { l with keys := if l.inFlow then l.keys.drop 1 else l.keys, allowsKey := false }
  let l :=
    if t = .flowListEnd then
      let l := l.closePair
      { l with openPairs := l.openPairs.drop 1 }
    else l
  let (_, l) ← (l.moveTo (l.cursor.skip 1)).skipLine size
  return { l with colonAt := if l.inFlow then l.cursor.index else l.colonAt }.push t

/-- The layout after a comma between brackets. -/
def comma (size : Nat) (l : Layout) : Option Layout := do
  let l ← l.dropKey
  let l := { l with allowsKey := true }.closePair
  let (_, l) ← (l.moveTo (l.cursor.skip 1)).skipLine size
  return l.push .comma

/-! ## Blocks of items and of keys -/

/-- The layout after the dash before an item. -/
def item (size : Nat) (l : Layout) : Option Layout := do
  let column := l.cursor.column
  if l.inFlow || !l.allowsKey then none
  else if column = 0 ∧ l.propertyColumn = some 0 ∧ l.indent > -1 then none
  else
    let l := (l.moveTo (l.cursor.skip 1)).openBlock column none .blockListStart
    let (seen, l) ← l.skipLine size
    let c := l.cursor
    if seen.tab ∧ c.char = '-' ∧ isGap c.second then none
    else
      let l := if isBreak c.char || isFlow c.char then l.indentByOne else l
      let l ← l.dropKey
      return { l with allowsKey := true }.push .item

/-- The layout after a question mark before a key. -/
def question (size : Nat) (l : Layout) : Option Layout := do
  if !l.inFlow && !l.allowsKey then none
  else
    let l :=
      if l.inFlow then { l with inFlowTable := true }
      else l.openBlock l.cursor.column none .blockTableStart
    let l ← l.dropKey
    let l := { l with allowsKey := !l.inFlow }
    return (← (l.moveTo (l.cursor.skip 1)).skipKeyGap false size).push .key

/-- The layout after the colon of a key that started at a place. -/
def valueOf (l : Layout) (k : KeyPlace) (startsPair : Bool) (line : Nat) : Option Layout :=
  let l := l.insert k.tokens .key
  if startsPair ∧ k.line < line then none
  else
    let l := if startsPair then l.insert k.tokens .flowTableStart else l
    let l := (l.openBlock k.column (some k.tokens) .blockTableStart).indentByOne
    some { l.setKey none with allowsKey := false }

/-- The layout after a colon that no word stands before. -/
def valueAlone (l : Layout) (startsPair : Bool) (column : Nat) : Option Layout :=
  let l := if startsPair then l.push .flowTableStart else l
  if !l.inFlow && !l.allowsKey then none
  else
    let l := (l.openBlock column none .blockTableStart).indentByOne
    some { l with allowsKey := !l.inFlow }

/-- The layout after a colon. -/
def value (size : Nat) (l : Layout) : Option Layout := do
  let start := l.cursor
  let key := l.key?
  let startsPair := !l.openPairs.isEmpty && !l.inFlowTable
  let l := { l with
    cursor := start.skip 1
    openPairs := if startsPair then true :: l.openPairs.drop 1 else l.openPairs }
  let l ←
    if l.cursor.char = '\t' then do
      let (seen, l) ← l.skipLine size
      let c := l.cursor.char
      if !seen.space ∧ (c = '-' ∨ Text.isAlphanumeric c) then none else pure l
    else pure l
  let l ←
    match key with
    | some k => l.valueOf k startsPair start.line
    | none => l.valueAlone startsPair start.column
  return l.push .value

/-! ## Nodes -/

/-- The layout with a token that says something about a node, which stands in a column. -/
def pushProperty (l : Layout) (t : Token) (column : Nat) : Layout :=
  { l.push t with propertyColumn := if t.isProperty then some column else none }

/-- A character of the name of an anchor. -/
def isAnchorChar (c : Char) : Bool :=
  !isGap c && !isFlow c && c ≠ '\ufeff'

/-- The layout after an anchor or a reference to one. -/
def anchor (l : Layout) (make : String → Token) : Option Layout :=
  let l := { l.startKey with allowsKey := false }
  let (name, c) := (l.cursor.skip 1).takeWhile isAnchorChar
  if name.isEmpty then none
  else some ((l.moveTo c).pushProperty (make (String.ofList name)) l.cursor.column)

/-- A tag from its exclamation mark on. -/
def readTag (c : Cursor) : Option (Tag × Cursor) :=
  if c.second = '<' then
    let (text, next) := (c.skip 2).takeWhile isTagChar
    if text.isEmpty || next.char ≠ '>' then none else some (⟨"", String.ofList text⟩, next.skip 1)
  else
    let (handle, next) := readHandle c
    let (suffix, next) := next.takeWhile fun d => isTagChar d && !isFlow d && d ≠ '!'
    let suffix := String.ofList suffix
    if handle.length > 1 ∧ handle.endsWith "!" then
      if suffix.isEmpty && handle ≠ "!!" then none else some (⟨handle, suffix⟩, next)
    else
      let suffix := String.ofList (handle.toList.drop 1) ++ suffix
      some (if suffix.isEmpty then ⟨"", "!"⟩ else ⟨"!", suffix⟩, next)

/-- The layout after a tag. -/
def tag (l : Layout) : Option Layout := do
  let l := { l.startKey with allowsKey := false }
  let (t, c) ← readTag l.cursor
  if isGap c.char || (l.inFlow && c.char == ',') then
    return (l.moveTo c).pushProperty (.tag t) l.cursor.column
  else none

/-- The layout after a scalar. -/
def pushScalar (l : Layout) (isPlain : Bool) (text : List Char) : Layout :=
  l.push (.scalar isPlain (String.ofList text))

/-- The layout after a block of lines. -/
def block (size : Nat) (l : Layout) (literal : Bool) : Option Layout := do
  let l := { l.startKey with allowsKey := true }.dropIndents
  let (text, c) ← readBlock size literal l.indent l.cursor
  return (l.moveTo c).pushScalar false text

/-- Whether a text in quotes that started in a line may be followed by what stands at a place. -/
def mayFollowQuoted (l : Layout) (line : Nat) : Bool :=
  let c := l.cursor
  if isLineEnd c.char then true
  else if c.char = ':' then l.inFlow || line == c.line
  else l.inFlow && [',', ']', '\x7d'].contains c.char

/-- The layout after a text in quotes. -/
def quoted (size : Nat) (l : Layout) : Option Layout := do
  let start := l.cursor
  let l := { l.startKey with allowsKey := false }
  let (text, c) ← readQuoted size start.char l.indent size (start.skip 1)
  let (_, l) ← (l.moveTo c).skipLine size
  if l.mayFollowQuoted start.line then
    let l ← l.skipGap size size
    return { l with colonAt := l.cursor.index }.pushScalar false text
  else none

/-- The layout after a plain text. A key may start after it if it ends with its line. -/
def plain (size : Nat) (l : Layout) : Option Layout := do
  let l := { l.startKey with allowsKey := false }.dropIndents
  let indent := l.indent + 1
  if l.inFlow ∧ l.cursor.column < indent then none
  else
    let (text, c) ← readPlain size l.inFlow indent [] size l.cursor
    if text.isEmpty then none
    else return { l.moveTo c with allowsKey := c.leading }.pushScalar true text

/-! ## Texts -/

/-- The layout after the node or the mark at its place. -/
def next (size : Nat) (l : Layout) : Option Layout :=
  let c := l.cursor
  let next := c.second
  if c.char = '[' then l.openFlow size .flowListStart
  else if c.char = '\x7b' then l.openFlow size .flowTableStart
  else if c.char = ']' then l.closeFlow size .flowListEnd
  else if c.char = '\x7d' then l.closeFlow size .flowTableEnd
  else if c.char = ',' then l.comma size
  else if c.char = '-' ∧ isGap next then l.item size
  else if c.char = '?' ∧ isGap next then l.question size
  else if c.char = ':' ∧ (isGap next ∨ (l.inFlow ∧ (isFlow next ∨ c.index = l.colonAt))) then
    l.value size
  else if c.char = '*' then l.anchor .reference
  else if c.char = '&' then l.anchor .anchor
  else if c.char = '!' then l.tag
  else if c.char = '|' ∧ !l.inFlow then l.block size true
  else if c.char = '>' ∧ !l.inFlow then l.block size false
  else if c.char = '\'' ∨ c.char = '"' then l.quoted size
  else if c.char = '%' ∨ c.char = '@' ∨ c.char = '\x60' then none
  else l.plain size

/-- The layout after the mark or the directive at the start of its line, or after the node or the
mark at its place. -/
def step (size : Nat) (l : Layout) : Option Layout := do
  let c := l.cursor
  if c.column = 0 ∧ c.char = '%' then l.directive size
  else if c.isMark '-' then l.documentMark .documentStart
  else if c.isMark '.' then
    let (_, l) ← (← l.documentMark .documentEnd).skipLine size
    if isLineEnd l.cursor.char then return l else none
  else if c.column < l.indent then none
  else l.next size

/-- The tokens of a text from a layout on, in at most `fuel` steps. -/
def toTokens (size : Nat) : (fuel : Nat) → Layout → Option (List Token)
  | 0, _ => none
  | fuel + 1, l => do
    let l ← (← l.skipGap size size).dropLongKey
    let l := l.closeBlocks l.cursor.column
    if l.cursor.atEnd then
      if l.keys.any fun k => k.any KeyPlace.required then none
      else return (l.closeBlocks (-1)).tokens.reverse
    else toTokens size fuel (← l.step size)

end Layout

/-- The tokens of a text. -/
def tokens? (text : List Char) : Option (List Token) :=
  let size := text.length + 1
  Layout.toTokens size size { cursor := { rest := text } }

end Yaml
end TaskTable
