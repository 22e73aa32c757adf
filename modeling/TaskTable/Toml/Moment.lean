import TaskTable.Number.Digits
import TaskTable.Settings.Value
import TaskTable.Time.Calendar

/-!
# TOML moments

A day, a time of day, or both, then with or without an offset from UTC. A moment is kept as its
text, in which a `T` stands before the time, a part of a second has nine places at most and none of
them a zero at the end, and an offset of nothing is `+00:00` or `Z`. While a document is read, a
table with one special key marks a moment.
-/

namespace TaskTable
namespace Toml
namespace Moment

/-- A number of exactly `width` digits. -/
def readFixed (width : Nat) (s : List Char) : Option (Nat × List Char) :=
  let ds := s.take width
  if ds.length = width ∧ ds.all Char.isDigit then some (Number.ofDigits ds, s.drop width)
  else none

/-- The text after a mark. -/
def skipMark (c : Char) : List Char → Option (List Char)
  | d :: rest => if d = c then some rest else none
  | [] => none

/-- A day: year, month and day of the month. -/
def readDate (s : List Char) : Option (List Char × List Char) := do
  let (year, rest) ← readFixed 4 s
  let (month, rest) ← readFixed 2 (← skipMark '-' rest)
  let (day, rest) ← readFixed 2 (← skipMark '-' rest)
  if (⟨year, month, day⟩ : Time.Date).isValid then return (s.take 10, rest) else none

/-- A part of a second. -/
def fractionText (ds : List Char) : List Char :=
  let kept := ((ds.take 9).reverse.dropWhile (· == '0')).reverse
  if kept.isEmpty then [] else '.' :: kept

/-- A time of day, whose hour is at most `lastHour`, and the text after it. A point without digits
after it is left over. -/
def readTime (lastHour : Nat) (s : List Char) : Option (List Char × List Char) := do
  let (hour, rest) ← readFixed 2 s
  let (minute, rest) ← readFixed 2 (← skipMark ':' rest)
  let (second, rest) ← readFixed 2 (← skipMark ':' rest)
  if hour ≤ lastHour ∧ minute < 60 ∧ second ≤ 60 then
    match rest with
    | '.' :: more =>
      let ds := more.takeWhile Char.isDigit
      if ds.isEmpty then return (s.take 8, rest)
      else return (s.take 8 ++ fractionText ds, more.dropWhile Char.isDigit)
    | rest => return (s.take 8, rest)
  else none

/-- An offset of some minutes. -/
def offsetText (negative : Bool) (minutes : Nat) : List Char :=
  (if negative && minutes ≠ 0 then '-' else '+') :: Number.padded 2 (minutes / 60)
    ++ ':' :: Number.padded 2 (minutes % 60)

/-- An offset from UTC that `allowed` allows by its hours and minutes. -/
def readOffset (allowed : Nat → Nat → Bool) (s : List Char) : Option (List Char × List Char) := do
  match s with
  | 'Z' :: rest | 'z' :: rest => return (['Z'], rest)
  | c :: rest =>
    if c = '+' ∨ c = '-' then
      let (hours, rest) ← readFixed 2 rest
      let (minutes, rest) ← readFixed 2 (← skipMark ':' rest)
      if allowed hours minutes then return (offsetText (c == '-') (60 * hours + minutes), rest)
      else none
    else none
  | [] => none

/-- A mark between a day and a time. -/
def isBetween (c : Char) : Bool :=
  c == 'T' || c == 't' || c == ' '

/-- A moment that a document writes, and the text after it. -/
def read (s : List Char) : Option (List Char × List Char) :=
  match readDate s with
  | none => readTime 23 s
  | some (date, rest) =>
    match rest with
    | [] => some (date, rest)
    | c :: more =>
      match if isBetween c then readTime 23 more else none with
      | none => some (date, rest)
      | some (time, more) =>
        let isAllowed (hours minutes : Nat) : Bool := hours < 24 && minutes < 60
        let (offset, more) := (readOffset isAllowed more).getD ([], more)
        some (date ++ 'T' :: time ++ offset, more)

/-- A day and a time of day in a text of their own, and the text after them. -/
def readLoose (s : List Char) : Option (List Char × List Char) := do
  let (date, rest) ← readDate s
  match rest with
  | [] => return (date, [])
  | c :: more =>
    if isBetween c then
      let (time, more) ← readTime 24 more
      return (date ++ 'T' :: time, more)
    else return (date, rest)

/-- The moment that a text of its own writes. The rules are wider than in a document: a day may end
with hour 24, a day alone may have an offset, and an offset may have up to 24 hours. -/
def ofText? (s : String) : Option String := do
  let s := s.toList
  if s[2]? = some ':' then
    match ← readTime 24 s with
    | (time, []) => return String.ofList time
    | _ => none
  else
    let (moment, rest) ← readLoose s
    if rest.isEmpty then return String.ofList moment
    else
      let isAllowed (hours minutes : Nat) : Bool := 60 * hours + minutes ≤ 24 * 60
      match ← readOffset isAllowed rest with
      | (offset, []) => return String.ofList (moment ++ offset)
      | _ => none

/-! ## Moments among values -/

open Settings (Value)

/-- The key that marks a table as a moment. -/
def key : String := "$__toml_private_datetime"

/-- The value that a moment is read as: a table that holds its text under the mark. -/
def mark (text : List Char) : Value :=
  .table [(key, .text (String.ofList text))]

mutual

/-- A value with the text of each moment in place of its marked table. A table that starts with the
mark is a moment, whoever wrote the mark, so that a text must follow which writes one. -/
def unmark? : Value → Option Value
  | .table ((k, v) :: rest) =>
    if k = key then
      match v with
      | .text s => (ofText? s).map .text
      | _ => none
    else do return .table ((k, ← unmark? v) :: (← unmarkFields? rest))
  | .list vs => (unmarkItems? vs).map .list
  | v => some v

/-- Items with the text of each moment in place of its marked table. -/
def unmarkItems? : List Value → Option (List Value)
  | [] => some []
  | v :: rest => do return (← unmark? v) :: (← unmarkItems? rest)

/-- Fields with the text of each moment in place of its marked table. -/
def unmarkFields? : List (String × Value) → Option (List (String × Value))
  | [] => some []
  | (k, v) :: rest => do return (k, ← unmark? v) :: (← unmarkFields? rest)

end

end Moment
end Toml
end TaskTable
