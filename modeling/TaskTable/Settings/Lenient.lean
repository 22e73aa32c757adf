import TaskTable.Settings.Value

/-!
# What setting values stand for

Values are lenient: a number may be written as a text, and a truth value counts as 1 or 0. A value
from the environment is a text, of which the first of these is read that it can be: a truth value,
a whole number, a number, a text.
-/

namespace TaskTable
namespace Settings
namespace Value

/-! ## Numbers in texts -/

/-- A whole number: a sign or none, and digits. -/
def intOfText? (s : List Char) : Option Int :=
  match s with
  | '-' :: ds => (Number.ofDigits? ds).map fun n => -(n : Int)
  | '+' :: ds => (Number.ofDigits? ds).map fun n => (n : Int)
  | ds => (Number.ofDigits? ds).map fun n => (n : Int)

/-- A whole number of 64 bits with a sign. -/
def int64OfText? (s : String) : Option Int :=
  (intOfText? s.toList).filter fun n =>
    decide (-(Number.twoPow 63 : Int) ≤ n ∧ n < Number.twoPow 63)

/-- A whole number of 64 bits without a sign; a plus may stand before it. -/
def word64OfText? (s : String) : Option Nat :=
  let ds :=
    match s.toList with
    | '+' :: ds => ds
    | ds => ds
  (Number.ofDigits? ds).filter fun n => decide (n < Number.twoPow 64)

/-- The number with a sign that is beyond the largest. -/
def infinite (negative : Bool) : Number.Binary64 :=
  .ofMagnitude negative Number.Binary64.infiniteMagnitude

/-- What is no number, with a sign. -/
def notANumber (negative : Bool) : Number.Binary64 :=
  .ofMagnitude negative (Number.Binary64.infiniteMagnitude + Number.twoPow 51)

/-- An exponent: nothing, or an `e` and a whole number. -/
def exponentOfText? : List Char → Option Int
  | [] => some 0
  | c :: rest => if c = 'e' ∨ c = 'E' then intOfText? rest else none

/-- A number without its sign: digits with or without a point, and an exponent. -/
def magnitudeOfText? (negative : Bool) (s : List Char) : Option Number.Binary64 :=
  let whole := s.takeWhile Char.isDigit
  let (places, rest) :=
    match s.dropWhile Char.isDigit with
    | '.' :: rest => (rest.takeWhile Char.isDigit, rest.dropWhile Char.isDigit)
    | rest => ([], rest)
  if whole.isEmpty && places.isEmpty then none
  else
    (exponentOfText? rest).map fun e =>
      (Number.Binary64.ofDecimal? negative (Number.ofDigits (whole ++ places))
        (e - places.length)).getD (infinite negative)

/-- A number: a sign or none, and then digits, `inf`, `infinity` or `nan`. -/
def realOfText? (s : String) : Option Number.Binary64 :=
  let (negative, body) :=
    match s.toList with
    | '-' :: rest => (true, rest)
    | '+' :: rest => (false, rest)
    | rest => (false, rest)
  let word := String.ofList (body.map Char.toLower)
  if word = "inf" ∨ word = "infinity" then some (infinite negative)
  else if word = "nan" then some (notANumber negative)
  else magnitudeOfText? negative body

/-- A value as the environment gives it: a truth value, a whole number or a number where it reads as
one, else a text. -/
def ofVariable (s : String) : Value :=
  if lower s = "true" then bool true
  else if lower s = "false" then bool false
  else
    match int64OfText? s with
    | some n => int n
    | none =>
      match realOfText? s with
      | some x => real x
      | none => text s

/-! ## What values stand for -/

/-- The truth value that a word stands for. -/
def truthOfWord? (s : String) : Option Bool :=
  if ["true", "on", "yes"].contains (lower s) then some true
  else if ["false", "off", "no"].contains (lower s) then some false
  else none

/-- The nearest whole number of 64 bits, a half upwards. -/
def roundToWord64 (x : Number.Binary64) : Nat :=
  if x.isNaN || x.isNegative then 0
  else if x.isInfinite then Number.twoPow 64 - 1
  else
    let (m, q) := x.parts
    let den := Number.twoPow (-q).toNat
    min (Number.twoPow 64 - 1) ((2 * m * Number.twoPow q.toNat + den) / (2 * den))

/-- The number nearest to a whole number. -/
def realOfInt (n : Int) : Number.Binary64 :=
  (Number.Binary64.ofDecimal? (decide (n < 0)) n.natAbs 0).getD (infinite (decide (n < 0)))

/-- A value as a text. -/
def toText? : Value → Option String
  | text s => some s
  | bool true => some "true"
  | bool false => some "false"
  | int n => some (toString n)
  | real x => some x.toMessage
  | nothing | list _ | table _ => none

/-- A value as a whole number of 64 bits without a sign. -/
def toWord64? : Value → Option Nat
  | int n => if 0 ≤ n ∧ n < Number.twoPow 64 then some n.toNat else none
  | bool true => some 1
  | bool false => some 0
  | real x => some (roundToWord64 x)
  | text s =>
    match truthOfWord? s with
    | some b => some (if b then 1 else 0)
    | none => word64OfText? s
  | nothing | list _ | table _ => none

/-- A value as a number. -/
def toReal? : Value → Option Number.Binary64
  | real x => some x
  | int n => some (realOfInt n)
  | bool b => some (realOfInt (if b then 1 else 0))
  | text s =>
    match truthOfWord? s with
    | some b => some (realOfInt (if b then 1 else 0))
    | none => realOfText? s
  | nothing | list _ | table _ => none

end Value
end Settings
end TaskTable
