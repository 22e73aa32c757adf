import TaskTable.Number.Digits
import TaskTable.Number.Power

/-!
# Binary64

Double-precision numbers, held as their bits. All arithmetic is on the integers behind the bits: a
finite number is `m · 2 ^ q` with a sign, a decimal is read as the nearest such number, products and
quotients are rounded to nearest, and a number is written with the fewest digits that read back.
-/

namespace TaskTable
namespace Number

/-- A double-precision number by its bits: sign, eleven bits of exponent, 52 bits of fraction. -/
structure Binary64 where
  bits : UInt64
  deriving DecidableEq, Repr

namespace Binary64

/-! ## The parts of a number -/

/-- Whether the sign bit is set. -/
def isNegative (x : Binary64) : Bool :=
  x.bits ≥ 0x8000000000000000

/-- The bits without the sign. -/
def magnitude (x : Binary64) : Nat :=
  x.bits.toNat % twoPow 63

/-- The magnitude of the infinities. -/
def infiniteMagnitude : Nat := 0x7ff * twoPow 52

/-- Whether this is no number at all. -/
def isNaN (x : Binary64) : Bool :=
  x.magnitude > infiniteMagnitude

/-- Whether this is one of the infinities. -/
def isInfinite (x : Binary64) : Bool :=
  x.magnitude == infiniteMagnitude

/-- The number with a sign and a magnitude. -/
def ofMagnitude (negative : Bool) (m : Nat) : Binary64 :=
  ⟨UInt64.ofNat (m + if negative then twoPow 63 else 0)⟩

/-- Numbers `m` and `q` such that a finite number is `m · 2 ^ q`, sign apart. -/
def parts (x : Binary64) : Nat × Int :=
  let field : Nat := x.magnitude / twoPow 52
  let fraction : Nat := x.magnitude % twoPow 52
  if field = 0 then (fraction, -1074) else (fraction + twoPow 52, (field : Int) - 1075)

/-- Whether a number lies in the closed interval from 0 to 1, where the two zeros count as one. -/
def isProbability (x : Binary64) : Bool :=
  x.magnitude == 0 || (!x.isNegative && x.magnitude ≤ 0x3ff * twoPow 52)

/-- The whole part of a finite number taken `2 ^ 64` times, sign apart. -/
def timesTwoPow64 (x : Binary64) : Nat :=
  let (m, q) := x.parts
  m * twoPow (q + 64).toNat / twoPow (-(q + 64)).toNat

/-! ## Reading -/

/-- The quotient `num / den` rounded to the nearest whole number, a half to the even neighbour. -/
def roundDiv (num den : Nat) : Nat :=
  let floor := num / den
  let twice := 2 * (num % den)
  if twice < den then floor
  else if twice > den then floor + 1
  else floor + floor % 2

/-- The exponent of the highest power of two that is at most `num / den`, for positive `num` and
`den`. -/
def floorLog2 (num den : Nat) : Int :=
  let e : Int := (Nat.log2 num : Int) - Nat.log2 den
  if den * twoPow e.toNat ≤ num * twoPow (-e).toNat then e else e - 1

/-- The number nearest to `num / den`, a half to the even neighbour; `none` beyond the largest. -/
def ofRatio? (negative : Bool) (num den : Nat) : Option Binary64 :=
  if num = 0 then some (ofMagnitude negative 0)
  else
    let q := max (floorLog2 num den - 52) (-1074)
    let m := roundDiv (num * twoPow (-q).toNat) (den * twoPow q.toNat)
    let magnitude := if m < twoPow 52 then m else (q + 1075).toNat * twoPow 52 + (m - twoPow 52)
    if magnitude < infiniteMagnitude then some (ofMagnitude negative magnitude) else none

/-- The number nearest to `n · 10 ^ e`; `none` beyond the largest. Exponents so far out that the
answer is plain are settled before any power is taken. -/
def ofDecimal? (negative : Bool) (n : Nat) (e : Int) : Option Binary64 :=
  if n = 0 then some (ofMagnitude negative 0)
  else if e > 400 then none
  else if e + (digits n).length < -400 then some (ofMagnitude negative 0)
  else ofRatio? negative (n * tenPow e.toNat) (tenPow (-e).toNat)

/-! ## Products and quotients -/

/-- The number nearest to a product of finite numbers, the sign apart; `none` beyond the largest. -/
def product? (x y : Binary64) : Option Binary64 :=
  let (m, p) := x.parts
  let (n, q) := y.parts
  ofRatio? false (m * n * twoPow (p + q).toNat) (twoPow (-(p + q)).toNat)

/-- The number nearest to a quotient of finite numbers, the sign apart; `none` beyond the largest.
The divisor is not zero. -/
def quotient? (x y : Binary64) : Option Binary64 :=
  let (m, p) := x.parts
  let (n, q) := y.parts
  ofRatio? false (m * twoPow (p - q).toNat) (n * twoPow (q - p).toNat)

/-! ## Writing -/

/-- How an exact tie between two decimals of one length is broken. -/
inductive Tie
  | toEven
  | up
  deriving DecidableEq, Repr

/-- Whether a decimal `d · 10 ^ k` reads back as `m · 2 ^ q`: it lies no further than half way to
either neighbour, where half way counts exactly for even `m`. -/
def readsBackAs (m : Nat) (q : Int) (d : Nat) (k : Int) : Bool :=
  let scale := twoPow (q - 2).toNat * tenPow (-k).toNat
  let point := d * (twoPow (2 - q).toNat * tenPow k.toNat)
  let low := (4 * m - if m = twoPow 52 ∧ q > -1074 then 1 else 2) * scale
  let high := (4 * m + 2) * scale
  if m % 2 = 0 then low ≤ point && point ≤ high else low < point && point < high

/-- The decimals with exponent `k` on either side of `m · 2 ^ q` that read back, the nearer first;
at equal distance the tie decides. -/
def neighbours (tie : Tie) (m : Nat) (q k : Int) : List Nat :=
  let num := m * twoPow q.toNat * tenPow (-k).toNat
  let den := twoPow (-q).toNat * tenPow k.toNat
  let floor := num / den
  let near :=
    match tie with
    | .toEven => roundDiv num den
    | .up => (2 * num + den) / (2 * den)
  let far := if near = floor then floor + 1 else floor
  [near, far].filter fun d => d ≠ 0 && readsBackAs m q d k

/-- The decimal `d · 10 ^ k` with the fewest digits that reads back as `m · 2 ^ q`, for positive
`m`. The exponents are tried from above the number's own magnitude downwards. -/
def shortest (tie : Tie) (m : Nat) (q : Int) : Nat × Int :=
  let log10 := (floorLog2 (m * twoPow q.toNat) (twoPow (-q).toNat)) * 30103 / 100000
  let grids := (List.range 24).map fun (i : Nat) => log10 + 3 - (i : Int)
  (grids.findSome? fun k => ((neighbours tie m q k).head?).map fun d => (d, k)).getD (m, q)

/-- The digits and the exponent of a finite number as its shortest decimal. -/
def decimal (tie : Tie) (x : Binary64) : Nat × Int :=
  let (m, q) := x.parts
  if m = 0 then (0, 0) else shortest tie m q

/-- A decimal `d · 10 ^ k` written without an exponent. -/
def positional (d : Nat) (k : Int) : List Char :=
  let ds := digits d
  if k ≥ 0 then ds ++ (if d = 0 then [] else List.replicate k.toNat '0')
  else
    let places := (-k).toNat
    let ds := List.replicate (places + 1 - ds.length) '0' ++ ds
    ds.take (ds.length - places) ++ '.' :: ds.drop (ds.length - places)

/-- The sign of a number as it is written. -/
def sign (x : Binary64) : List Char :=
  if x.isNegative then ['-'] else []

/-- A number in messages: its shortest digits without an exponent, and a point only where it has
places. Of two decimals at equal distance the upper one is written. -/
def toMessage (x : Binary64) : String :=
  if x.isNaN then "NaN"
  else if x.isInfinite then String.ofList (x.sign ++ "inf".toList)
  else
    let (d, k) := x.decimal .up
    String.ofList (x.sign ++ positional d k)

/-- A number in settings: as in messages, but with at least one place. -/
def toSetting (x : Binary64) : String :=
  if x.isNaN then String.ofList (x.sign ++ "nan".toList)
  else if x.isInfinite then String.ofList (x.sign ++ "inf".toList)
  else
    let (d, k) := x.decimal .up
    String.ofList (x.sign ++ positional d k ++ if k ≥ 0 then ['.', '0'] else [])

/-- A finite number in JSON: with at least one place, and below `10 ^ -5` and from `10 ^ 16` on with
an exponent, which has its sign. Of two decimals at equal distance the even one is written. -/
def toJsonText (x : Binary64) : List Char :=
  let (d, k) := x.decimal .toEven
  let ds := digits d
  let point := (ds.length : Int) + k
  let body :=
    if d = 0 then ['0', '.', '0']
    else if k ≥ 0 ∧ point ≤ 16 then positional d k ++ ['.', '0']
    else if -5 < point ∧ point ≤ 16 then positional d k
    else
      let e := point - 1
      ds.take 1 ++ (if ds.length = 1 then [] else '.' :: ds.drop 1) ++ 'e'
        :: (if e < 0 then '-' else '+') :: digits e.natAbs
  x.sign ++ body

end Binary64
end Number
end TaskTable
