import TaskTable.Number.Digits
import TaskTable.Number.Power
import TaskTable.Text.Blank
import TaskTable.Time.Calendar

/-!
# Instants

Points in time as seconds since the start of 1970 and nanoseconds, and their written form: date and
time of day in UTC with a `Z`, and the seconds with no, three, six or nine places, whichever are the
fewest that lose nothing. Reading is more liberal: a blank may stand for the `T`, any offset from
UTC may be given, and numbers may lack their leading zeros. Every minute may have a leap second.
-/

namespace TaskTable

/-- A point in time. A leap second belongs to the second before it. -/
structure Instant where
  /-- Whole seconds since the start of 1970, leap seconds apart. -/
  second : Int
  /-- Nanoseconds since then: less than a second's, and in a leap second less than two seconds'. -/
  nanos : Nat
  deriving DecidableEq, Repr

namespace Instant

/-- The nanoseconds of a second. -/
def nanosPerSecond : Nat := 1000000000

/-- The seconds of a day. -/
def secondsPerDay : Nat := 86400

/-- The point a number of nanoseconds after the start of 1970. -/
def ofNanos (ns : Int) : Instant :=
  ⟨ns / nanosPerSecond, (ns % nanosPerSecond).toNat⟩

/-- The point a number of milliseconds after the start of 1970. -/
def ofMillis (ms : Int) : Instant :=
  ofNanos (ms * 1000000)

/-- The second of the day. -/
def ofDay (t : Instant) : Nat :=
  (t.second % secondsPerDay).toNat

/-- Whether this lies in a leap second. -/
def isLeap (t : Instant) : Bool :=
  nanosPerSecond ≤ t.nanos

/-- The nanoseconds from one point to another. A leap second counts where the times of day have it
between them or in them. -/
def elapsed (since now : Instant) : Int :=
  let leap : Int :=
    if since.isLeap ∧ since.ofDay < now.ofDay then 1
    else if now.isLeap ∧ now.ofDay < since.ofDay then -1
    else 0
  (now.second - since.second + leap) * nanosPerSecond + (now.nanos - since.nanos)

/-- The whole milliseconds from one point to a later one; 0 if it is not later. -/
def elapsedMillis (since now : Instant) : Nat :=
  (elapsed since now / 1000000).toNat

/-- The point a number of seconds later. -/
def addSeconds (t : Instant) (s : Nat) : Instant :=
  ⟨t.second + s, t.nanos⟩

/-! ## Writing -/

/-- A year: four digits, and outside of them a sign as well. -/
def yearText (year : Int) : List Char :=
  if 0 ≤ year ∧ year ≤ 9999 then Number.padded 4 year.toNat
  else (if year < 0 then '-' else '+') :: Number.padded 4 year.natAbs

/-- A part of a second, from its nanoseconds: nothing, or a point and three, six or nine digits. -/
def fractionText (nanos : Nat) : List Char :=
  if nanos = 0 then []
  else if nanos % 1000000 = 0 then '.' :: Number.padded 3 (nanos / 1000000)
  else if nanos % 1000 = 0 then '.' :: Number.padded 6 (nanos / 1000)
  else '.' :: Number.padded 9 nanos

/-- The written form of an instant, as characters. -/
def chars (t : Instant) : List Char :=
  let date := Time.Date.ofDays (t.second / secondsPerDay + Time.epochDay)
  let second := t.ofDay % 60 + if t.isLeap then 1 else 0
  yearText date.year ++ '-' :: Number.padded 2 date.month ++ '-' :: Number.padded 2 date.day
    ++ 'T' :: Number.padded 2 (t.ofDay / 3600) ++ ':' :: Number.padded 2 (t.ofDay / 60 % 60)
    ++ ':' :: Number.padded 2 second ++ fractionText (t.nanos % nanosPerSecond) ++ ['Z']

/-- The written form of an instant. -/
def toText (t : Instant) : String :=
  String.ofList t.chars

/-! ## Reading -/

/-- At least one digit and at most `most`, and the text after them. -/
def readNumber (most : Nat) (s : List Char) : Option (Nat × List Char) :=
  let ds := (s.take most).takeWhile Char.isDigit
  if ds.isEmpty then none else some (Number.ofDigits ds, s.drop ds.length)

/-- A number of at most `most` digits, with blanks before it. -/
def readField (most : Nat) (s : List Char) : Option (Nat × List Char) :=
  readNumber most (Text.trimStart s)

/-- The character `c`, with blanks before it. -/
def skipMark (c : Char) (s : List Char) : Option (List Char) :=
  match Text.trimStart s with
  | d :: rest => if d = c then some rest else none
  | [] => none

/-- A year: up to four digits, or any number of digits after a sign. -/
def readYear (s : List Char) : Option (Int × List Char) :=
  match Text.trimStart s with
  | '+' :: rest => (readNumber rest.length rest).map fun (n, r) => ((n : Int), r)
  | '-' :: rest => (readNumber rest.length rest).map fun (n, r) => (-(n : Int), r)
  | rest => (readNumber 4 rest).map fun (n, r) => ((n : Int), r)

/-- A part of a second as nanoseconds. Digits beyond the ninth are passed over. -/
def readFraction (s : List Char) : Option (Nat × List Char) :=
  match s with
  | '.' :: rest =>
    let ds := rest.takeWhile Char.isDigit
    if ds.isEmpty then none
    else
      let kept := ds.take 9
      some (Number.ofDigits kept * Number.tenPow (9 - kept.length), rest.dropWhile Char.isDigit)
  | rest => some (0, rest)

/-- Two digits. -/
def readTwo : List Char → Option (Nat × List Char)
  | a :: b :: rest =>
    if a.isDigit && b.isDigit then some (Number.ofDigits [a, b], rest) else none
  | _ => none

/-- An offset from UTC in seconds: `Z`, `UTC`, or a sign, hours and minutes. -/
def readOffset (s : List Char) : Option (Int × List Char) :=
  let signed (positive : Bool) (rest : List Char) : Option (Int × List Char) := do
    let (hours, rest) ← readTwo rest
    let rest := rest.dropWhile fun c => c == ':' || Text.isBlank c
    let (minutes, rest) ← readTwo rest
    if minutes < 60 then
      let seconds : Int := hours * 3600 + minutes * 60
      some (if positive then seconds else -seconds, rest)
    else none
  if (s.take 3).map Char.toLower == ['u', 't', 'c'] then some (0, s.drop 3)
  else
    match s with
    | 'Z' :: rest | 'z' :: rest => some (0, rest)
    | '+' :: rest => signed true rest
    | '-' :: rest | '\u2212' :: rest => signed false rest
    | _ => none

/-- The days that instants lie in, counted from the first day of year 0. -/
def isWithin (day : Int) : Bool :=
  Time.daysBefore (-262143) ≤ day && day < Time.daysBefore 262143

/-- The instant that a text writes. -/
def read? (s : List Char) : Option Instant := do
  let (year, s) ← readYear s
  let s ← skipMark '-' s
  let (month, s) ← readField 2 s
  let s ← skipMark '-' s
  let (day, s) ← readField 2 s
  let date : Time.Date := ⟨year, month, day⟩
  let s ←
    match s with
    | 'T' :: rest | 't' :: rest | ' ' :: rest => some rest
    | _ => none
  let (hour, s) ← readField 2 s
  let s ← skipMark ':' s
  let (minute, s) ← readField 2 s
  let s ← skipMark ':' s
  let (second, s) ← readField 2 s
  let (fraction, s) ← readFraction s
  let (offset, s) ← readOffset (Text.trimStart s)
  let ofDay : Int := hour * 3600 + minute * 60 + min second 59 - offset
  let days := date.toDays + ofDay / secondsPerDay
  if date.isValid && isWithin date.toDays && isWithin days && hour < 24 && minute < 60
      && second ≤ 60 && offset.natAbs < secondsPerDay && (Text.trimStart s).isEmpty then
    some ⟨(date.toDays - Time.epochDay) * secondsPerDay + ofDay,
      fraction + if second = 60 then nanosPerSecond else 0⟩
  else none

/-- The instant that a text writes. -/
def ofText? (s : String) : Option Instant :=
  read? s.toList

end Instant

end TaskTable
