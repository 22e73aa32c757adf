import TaskTable.Number.Binary64

/-!
# Scaled decimals

Decimals read in three steps: the leading digits as far as they make up a number of 64 bits, that
number rounded, and its product with or its quotient by a rounded power of ten. Each step rounds, so
the result may lie beside the nearest number. This is how numbers in JSON are read.
-/

namespace TaskTable
namespace Number

/-- A number with as many digits put behind it as fit into 64 bits, and the digits left over. -/
def takeDigits (n : Nat) : List Char → Nat × List Char
  | [] => (n, [])
  | d :: ds =>
    let m := 10 * n + (d.toNat - '0'.toNat)
    if m < twoPow 64 then takeDigits m ds else (n, d :: ds)

namespace Binary64

/-- The rounded power of ten, for exponents up to 308. -/
def powerOfTen? (e : Nat) : Option Binary64 :=
  ofRatio? false (tenPow e) 1

/-- A number without its sign divided by a power of ten. Powers beyond the largest are taken in two
steps, and whatever is left after these is nothing. -/
def divideByPower? (x : Binary64) (e : Nat) : Option Binary64 := do
  if e ≤ 308 then x.quotient? (← powerOfTen? e)
  else if e ≤ 616 then (← x.quotient? (← powerOfTen? 308)).quotient? (← powerOfTen? (e - 308))
  else some (ofMagnitude false 0)

/-- The number read from a significand below `2 ^ 64` and a power of ten; `none` beyond the
largest. -/
def ofScaled? (negative : Bool) (n : Nat) (e : Int) : Option Binary64 := do
  if n = 0 then some (ofMagnitude negative 0)
  else
    let x ← ofRatio? false n 1
    let y ←
      if 308 < e then none
      else if 0 ≤ e then x.product? (← powerOfTen? e.toNat)
      else x.divideByPower? (-e).toNat
    return ofMagnitude negative y.magnitude

/-- The number read from the digits before and after a point and a power of ten; `none` beyond the
largest. -/
def ofDigits? (negative : Bool) (whole places : List Char) (e : Int) : Option Binary64 :=
  let (n, wholeLeft) := takeDigits 0 whole
  let (n, placesLeft) := takeDigits n places
  ofScaled? negative n (e + wholeLeft.length - (places.length - placesLeft.length : Nat))

end Binary64
end Number
end TaskTable
