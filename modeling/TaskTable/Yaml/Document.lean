import TaskTable.Settings.Lenient
import TaskTable.Yaml.Layout

/-!
# YAML documents

The values that the tokens of a text write. A plain scalar is read as a number or as a truth value
where it can be; any other scalar is a text. A node that has an anchor may be written once more by
its name.
-/

namespace TaskTable
namespace Yaml

open Settings (Value)

/-! ## Scalars -/

/-- A whole number of 64 bits to a base, with or without a sign. -/
def intOf? (base : Nat) (s : List Char) : Option Int :=
  let (negative, ds) :=
    match s with
    | '-' :: ds => (true, ds)
    | '+' :: ds => (false, ds)
    | ds => (false, ds)
  let n : Int := Number.ofDigitsOf base ds
  let n := if negative then -n else n
  if ds.isEmpty || !ds.all (Number.isDigitOf base) then none
  else if -(Number.twoPow 63 : Int) ≤ n ∧ n < Number.twoPow 63 then some n
  else none

/-- A whole number that a plain scalar writes. -/
def wholeOf? (s : List Char) : Option Int :=
  let marked :=
    match s with
    | '0' :: 'x' :: ds => intOf? 16 ds
    | '0' :: 'o' :: ds => intOf? 8 ds
    | '+' :: ds => intOf? 10 ds
    | _ => none
  marked <|> intOf? 10 s

/-- A number that a plain scalar writes; `none` inside for one that has no digits. -/
def realOf? (s : String) : Option (Option Number.Binary64) :=
  let names := [".inf", ".Inf", ".INF", ".nan", ".NaN", ".NAN"]
  let isName := names.contains s || (["+", "-"].any fun sign =>
    (names.take 3).any fun name => s == sign ++ name)
  if isName then some none
  else if s.toList.any Char.isDigit then (Value.realOfText? s).map some
  else none

/-- The value of a scalar, or none if it can be none. -/
inductive Meaning
  | value (v : Value)
  /-- What a tag says of the scalar does not hold. -/
  | wrong
  /-- A number that settings do not have. -/
  | refused

/-- The number that a real scalar stands for. -/
def Meaning.ofReal : Option Number.Binary64 → Meaning
  | some x => value (.real x)
  | none => refused

/-- What a plain scalar stands for. -/
def plainMeaning (s : String) : Meaning :=
  match wholeOf? s.toList with
  | some n => .value (.int n)
  | none =>
    if s = "" ∨ s = "~" ∨ s = "null" then .value .nothing
    else if s = "true" then .value (.bool true)
    else if s = "false" then .value (.bool false)
    else
      match realOf? s with
      | some x => .ofReal x
      | none => .value (.text s)

/-- What a plain scalar with one of the tags of the format stands for. -/
def taggedMeaning (suffix s : String) : Meaning :=
  if suffix = "bool" then
    if s = "true" then .value (.bool true)
    else if s = "false" then .value (.bool false)
    else .wrong
  else if suffix = "int" then ((intOf? 10 s.toList).map (.value ∘ .int)).getD .wrong
  else if suffix = "float" then ((realOf? s).map .ofReal).getD .wrong
  else if suffix = "null" then if s = "~" ∨ s = "null" then .value .nothing else .wrong
  else .value (.text s)

/-- What the tags of the format start with. -/
def ownTags : String := "tag:yaml.org,2002:"

/-! ## Nodes -/

/-- A key of a table. A text and a whole number that is written alike are two keys. -/
inductive Key
  | text (s : String)
  | int (n : Int)
  deriving DecidableEq, Repr

/-- The name of a field. -/
def Key.name : Key → String
  | text s => s
  | int n => toString n

/-- The key that a value is; other values are no keys. -/
def Key.ofValue? : Value → Option Key
  | .text s => some (text s)
  | .int n => some (int n)
  | _ => none

/-- The fields of a table while it is read. -/
abbrev Entries := List (Key × Value)

/-- The table with some fields. -/
def tableOf (entries : Entries) : Value :=
  .table (entries.foldl (fun fields e => Value.putField e.1.name e.2 fields) [])

/-- The tokens that are left, and what is known from the ones before them. -/
structure Reading where
  tokens : List Token
  /-- The numbers of the nodes that the names of anchors stand for. -/
  anchors : List (String × Nat) := []
  /-- The nodes with anchors that are finished. -/
  nodes : List (Nat × Value) := []
  /-- What the handles of tags stand for. -/
  handles : List (String × String) := []

/-- A reader of nodes. -/
abbrev Reader (α : Type) := Reading → Option (α × Reading)

namespace Reading

/-- The reading after some tokens. -/
def after (r : Reading) (tokens : List Token) : Reading :=
  { r with tokens }

/-- The tag with its handle replaced by what it stands for. -/
def resolve (r : Reading) (t : Tag) : Option Tag :=
  if t.handle = "!!" then some ⟨(r.handles.lookup "!!").getD ownTags, t.suffix⟩
  else
    match r.handles.lookup t.handle with
    | some target => some ⟨target, t.suffix⟩
    | none => if t.handle.length > 1 ∧ t.handle.endsWith "!" then none else some t

/-- A tag, if one comes next. -/
def tag (r : Reading) : Option (Option Tag × Reading) :=
  match r.tokens with
  | .tag t :: rest => (r.resolve t).map fun t => (some t, r.after rest)
  | _ => some (none, r)

/-- The number of an anchor, if one comes next. -/
def anchor (r : Reading) : Option Nat × Reading :=
  match r.tokens with
  | .anchor name :: rest =>
    let n := r.anchors.length
    (some n, { r with tokens := rest, anchors := (name, n) :: r.anchors })
  | _ => (none, r)

/-- An anchor and a tag, in any order. -/
def properties (r : Reading) : Option (Option Nat × Option Tag × Reading) := do
  match r.anchor with
  | (some n, r) =>
    let (t, r) ← r.tag
    return (some n, t, r)
  | (none, r) =>
    let (t, r) ← r.tag
    let (n, r) := if t.isSome then r.anchor else (none, r)
    return (n, t, r)

/-- The reading in which the node with an anchor is finished. -/
def finish (r : Reading) (anchor : Option Nat) (v : Value) : Reading :=
  match anchor with
  | some n => { r with nodes := (n, v) :: r.nodes }
  | none => r

end Reading

/-- The value of a scalar with a tag or without one. -/
def scalarValue (isPlain : Bool) (tag : Option Tag) (s : String) : Option Value :=
  let meaning :=
    if isPlain then
      match tag with
      | some t => if t.handle = ownTags then taggedMeaning t.suffix s else .value (.text s)
      | none => plainMeaning s
    else .value (.text s)
  match meaning with
  | .value v => some v
  | .wrong => some .nothing
  | .refused => none

/-- A node that may be left out: nothing is there if a token comes next that ends it. -/
def orNothing (isEnd : Token → Bool) (node : Reader Value) : Reader Value := fun r =>
  if r.tokens.head?.any isEnd then some (.nothing, r) else node r

/-! ## Blocks -/

/-- Whether a token ends an item of a block. -/
def endsItem : Token → Bool
  | .item | .blockEnd => true
  | _ => false

/-- Whether a token ends an item of a list that is indented like the keys around it. -/
def endsFlatItem : Token → Bool
  | .item | .key | .value | .blockEnd => true
  | _ => false

/-- Whether a token ends a key or its value in a block. -/
def endsField : Token → Bool
  | .key | .value | .blockEnd => true
  | _ => false

/-- The items of a block. -/
def readItems (node : Reader Value) : (fuel : Nat) → Reader (List Value)
  | 0, _ => none
  | fuel + 1, r =>
    match r.tokens with
    | .blockEnd :: rest => some ([], r.after rest)
    | .item :: rest => do
      let (v, r) ← orNothing endsItem node (r.after rest)
      let (vs, r) ← readItems node fuel r
      return (v :: vs, r)
    | _ => none

/-- The items of a list that is indented like the keys around it. -/
def readFlatItems (node : Reader Value) : (fuel : Nat) → Reader (List Value)
  | 0, _ => none
  | fuel + 1, r =>
    match r.tokens with
    | .item :: rest => do
      let (v, r) ← orNothing endsFlatItem node (r.after rest)
      let (vs, r) ← readFlatItems node fuel r
      return (v :: vs, r)
    | _ => some ([], r)

/-- The value after a key, if there is one. -/
def readFieldValue (isEnd : Token → Bool) (node : Reader Value) : Reader Value := fun r =>
  match r.tokens with
  | .value :: rest => orNothing isEnd node (r.after rest)
  | _ => some (.nothing, r)

/-- Fields with one more. A table has each key once. -/
def addField (entries : Entries) (k v : Value) : Option Entries := do
  let k ← Key.ofValue? k
  if (entries.lookup k).isSome then none else return entries ++ [(k, v)]

/-- The fields of a block. -/
def readFields (node : Reader Value) : (fuel : Nat) → Entries → Reader Entries
  | 0, _, _ => none
  | fuel + 1, entries, r => do
    match r.tokens with
    | .blockEnd :: rest => return (entries, r.after rest)
    | .key :: rest =>
      let (k, r) ← orNothing endsField node (r.after rest)
      let (v, r) ← readFieldValue endsField node r
      readFields node fuel (← addField entries k v) r
    | _ => none

/-! ## Brackets -/

/-- Whether a token ends a key or its value between braces. -/
def endsFlowField : Token → Bool
  | .comma | .flowTableEnd => true
  | _ => false

/-- Whether a token ends a key or its value in a list in brackets. -/
def endsPair : Token → Bool
  | .comma | .flowListEnd => true
  | _ => false

/-- A field between braces: a key, with a mark or without one, and its value. A key without a mark
has no value. -/
def readFlowField (node : Reader Value) : Reader (Value × Value) := fun r => do
  match r.tokens with
  | .key :: rest =>
    let (k, r) ← orNothing (fun t => t = .value || endsFlowField t) node (r.after rest)
    let (v, r) ← readFieldValue endsFlowField node r
    return ((k, v), r)
  | _ =>
    let (k, r) ← node r
    return ((k, .nothing), r)

/-- The fields between braces; `first` tells whether none has been read. -/
def readFlowFields (node : Reader Value) (first : Bool) :
    (fuel : Nat) → Entries → Reader Entries
  | 0, _, _ => none
  | fuel + 1, entries, r => do
    match first, r.tokens with
    | _, .flowTableEnd :: rest | false, .comma :: .flowTableEnd :: rest =>
      return (entries, r.after rest)
    | false, .comma :: rest =>
      let ((k, v), r) ← readFlowField node (r.after rest)
      readFlowFields node false fuel (← addField entries k v) r
    | true, _ =>
      let ((k, v), r) ← readFlowField node r
      readFlowFields node false fuel (← addField entries k v) r
    | false, _ => none

/-- An item of a list in brackets: a node, or the one field of a table. -/
def readFlowItem (node : Reader Value) : Reader Value := fun r => do
  match r.tokens with
  | .key :: rest =>
    let (k, r) ← orNothing (fun t => t = .value || endsPair t) node (r.after rest)
    let (v, r) ← readFieldValue endsPair node r
    return (tableOf (← addField [] k v), r)
  | _ => node r

/-- The items of a list in brackets; `first` tells whether none has been read. -/
def readFlowItems (node : Reader Value) (first : Bool) : (fuel : Nat) → Reader (List Value)
  | 0, _ => none
  | fuel + 1, r => do
    match first, r.tokens with
    | _, .flowListEnd :: rest | false, .comma :: .flowListEnd :: rest => return ([], r.after rest)
    | false, .comma :: rest =>
      let (v, r) ← readFlowItem node (r.after rest)
      let (vs, r) ← readFlowItems node false fuel r
      return (v :: vs, r)
    | true, _ =>
      let (v, r) ← readFlowItem node r
      let (vs, r) ← readFlowItems node false fuel r
      return (v :: vs, r)
    | false, _ => none

/-! ## Documents -/

/-- Where a node stands. -/
inductive Context
  /-- Where a block may start. -/
  | block
  /-- After a key or its colon: a list may be indented like the key. -/
  | field
  /-- Between brackets. -/
  | flow
  deriving DecidableEq, Repr

/-- The content of a node with some tag. -/
def readContent (size : Nat) (node : Context → Reader Value) (context : Context)
    (tag : Option Tag) : Reader (Option Value) := fun r => do
  match r.tokens with
  | .item :: _ =>
    if context = .field then
      let (vs, r) ← readFlatItems (node .block) size r
      return (some (.list vs), r)
    else return (none, r)
  | .scalar isPlain s :: rest => return (some (← scalarValue isPlain tag s), r.after rest)
  | .flowListStart :: rest =>
    let (vs, r) ← readFlowItems (node .flow) true size (r.after rest)
    return (some (.list vs), r)
  | .flowTableStart :: rest =>
    let (entries, r) ← readFlowFields (node .flow) true size [] (r.after rest)
    return (some (tableOf entries), r)
  | .blockListStart :: rest =>
    if context = .flow then return (none, r)
    else
      let (vs, r) ← readItems (node .block) size (r.after rest)
      return (some (.list vs), r)
  | .blockTableStart :: rest =>
    if context = .flow then return (none, r)
    else
      let (entries, r) ← readFields (node .field) size [] (r.after rest)
      return (some (tableOf entries), r)
  | _ => return (none, r)

/-- A node with less than `levels` levels of nesting. -/
def readNode (size : Nat) : (levels : Nat) → Context → Reader Value
  | 0, _, _ => none
  | levels + 1, context, r =>
    match r.tokens with
    | .reference name :: rest => do
      let n ← r.anchors.lookup name
      return ((r.nodes.lookup n).getD .nothing, r.after rest)
    | _ => do
      let (anchor, tag, r) ← r.properties
      let (content, r) ← readContent size (readNode size levels) context tag r
      match content with
      | some v => return (v, r.finish anchor v)
      | none =>
        if anchor.isSome || tag.isSome then
          let v ← scalarValue true tag ""
          return (v, r.finish anchor v)
        else none

/-- The reading after directives: at most one tells the version, and each handle of tags is told
once. -/
def readDirectives (version : Bool) : (fuel : Nat) → Reading → Option Reading
  | 0, _ => none
  | fuel + 1, r =>
    match r.tokens with
    | .version :: rest => if version then none else readDirectives true fuel (r.after rest)
    | .tagHandle handle target :: rest =>
      readDirectives version fuel
        { r with tokens := rest, handles := (handle, target) :: r.handles }
    | _ => some r

/-- Whether a token is a directive. -/
def isDirective : Token → Bool
  | .version | .tagHandle _ _ => true
  | _ => false

/-- Whether a token stands between documents. -/
def isBetween (t : Token) : Bool :=
  isDirective t || t = .documentStart || t = .documentEnd

/-- The value of a document after its mark, which may have nothing in it. -/
def readContents (size : Nat) : Reader Value := fun r =>
  if r.tokens.isEmpty then some (.nothing, r) else orNothing isBetween (readNode size size .block) r

/-- The values of the documents of a text. A document must start with a mark, unless it is the first
one or the document before it ends with one; so must a document with directives. -/
def readDocuments (size : Nat) (mayStart : Bool) : (fuel : Nat) → Reading → Option (List Value)
  | 0, _ => none
  | fuel + 1, r => do
    let r := r.after (r.tokens.dropWhile (· = .documentEnd))
    if r.tokens.isEmpty then return []
    else
      let explicit := !mayStart || r.tokens.head?.any isBetween
      let r ← readDirectives false size r
      let (v, r) ←
        if explicit then
          match r.tokens with
          | .documentStart :: rest => readContents size (r.after rest)
          | _ => none
        else readNode size size .block r
      let ended := r.tokens.head? = some .documentEnd
      if !ended && r.tokens.head?.any isDirective then none
      else return v :: (← readDocuments size ended fuel { r with handles := [] })

/-- The value that a text writes: an empty table if it has no document. There is one document at
most. -/
def ofText? (s : String) : Option Value := do
  let tokens ← tokens? s.toList
  let size := tokens.length + 1
  match ← readDocuments size true size { tokens } with
  | [] => return .table []
  | [v] => return v
  | _ => none

end Yaml
end TaskTable
