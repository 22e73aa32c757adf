import TaskTable.Number.Power
import TaskTable.Random.Generator

/-!
# ChaCha

A generator whose words are the key stream of ChaCha with twelve rounds. The key is spread out from
a seed of 64 bits.
-/

namespace TaskTable

/-- A place in a key stream. -/
structure ChaCha where
  /-- The eight words of the key. -/
  key : List UInt32
  /-- The number of words taken so far. -/
  position : Nat
  deriving DecidableEq, Repr

namespace ChaCha

/-- A word turned left by `n` bits, for `n` from 1 to 31. -/
def rotateLeft (x n : UInt32) : UInt32 :=
  (x <<< n) ||| (x >>> (32 - n))

/-- Mixes four words. -/
def quarterRound (a b c d : UInt32) : UInt32 × UInt32 × UInt32 × UInt32 :=
  let a := a + b
  let d := rotateLeft (d ^^^ a) 16
  let c := c + d
  let b := rotateLeft (b ^^^ c) 12
  let a := a + b
  let d := rotateLeft (d ^^^ a) 8
  let c := c + d
  let b := rotateLeft (b ^^^ c) 7
  (a, b, c, d)

/-- Two rounds on a block of sixteen words: one along the columns and one along the diagonals. -/
def doubleRound : List UInt32 → List UInt32
  | [x0, x1, x2, x3, x4, x5, x6, x7, x8, x9, x10, x11, x12, x13, x14, x15] =>
    let (x0, x4, x8, x12) := quarterRound x0 x4 x8 x12
    let (x1, x5, x9, x13) := quarterRound x1 x5 x9 x13
    let (x2, x6, x10, x14) := quarterRound x2 x6 x10 x14
    let (x3, x7, x11, x15) := quarterRound x3 x7 x11 x15
    let (x0, x5, x10, x15) := quarterRound x0 x5 x10 x15
    let (x1, x6, x11, x12) := quarterRound x1 x6 x11 x12
    let (x2, x7, x8, x13) := quarterRound x2 x7 x8 x13
    let (x3, x4, x9, x14) := quarterRound x3 x4 x9 x14
    [x0, x1, x2, x3, x4, x5, x6, x7, x8, x9, x10, x11, x12, x13, x14, x15]
  | other => other

/-- A number of double rounds. -/
def rounds : Nat → List UInt32 → List UInt32
  | 0, block => block
  | n + 1, block => rounds n (doubleRound block)

/-- The block of the key stream with the given number. -/
def block (key : List UInt32) (n : Nat) : List UInt32 :=
  let start := [0x61707865, 0x3320646e, 0x79622d32, 0x6b206574] ++ key
    ++ [UInt32.ofNat n, UInt32.ofNat (n / Number.twoPow 32), 0, 0]
  List.zipWith (· + ·) start (rounds 6 start)

/-- The word of the key stream with the given number. -/
def word (key : List UInt32) (n : Nat) : UInt32 :=
  (block key (n / 16)).getD (n % 16) 0

/-- The next state of the generator that spreads out a seed. -/
def spread (state : UInt64) : UInt64 :=
  state * 6364136223846793005 + 11634580027462260723

/-- The word that a state of that generator gives: its middle bits, turned right by its highest. -/
def spreadWord (state : UInt64) : UInt32 :=
  let x := (((state >>> 18) ^^^ state) >>> 27).toUInt32
  let turn := (state >>> 59).toUInt32
  (x >>> turn) ||| (x <<< ((32 - turn) % 32))

/-- The first `n` words that a seed is spread out to. -/
def spreadKey : (n : Nat) → UInt64 → List UInt32
  | 0, _ => []
  | n + 1, state => spreadWord (spread state) :: spreadKey n (spread state)

instance : Generator ChaCha where
  ofSeed seed := ⟨spreadKey 8 seed, 0⟩
  draw32 g := (word g.key g.position, { g with position := g.position + 1 })
  draw64 g :=
    let low := (word g.key g.position).toUInt64
    let high := (word g.key (g.position + 1)).toUInt64
    (low ||| (high <<< 32), { g with position := g.position + 2 })

end ChaCha

end TaskTable
