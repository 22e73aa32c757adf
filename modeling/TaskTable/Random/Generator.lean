import TaskTable.Number.Power

/-!
# Random generators

What a random choice needs from a generator of random words, and the two choices that are made with
it: a yes or no with a given share of all words, and a number below a bound.
-/

namespace TaskTable

/-- A generator of random words, which starts from a seed. -/
class Generator (γ : Type) where
  ofSeed : UInt64 → γ
  draw32 : γ → UInt32 × γ
  draw64 : γ → UInt64 × γ

namespace Generator

variable {γ : Type} [Generator γ]

/-- Yes, if the next word is among the first `share` of the `2 ^ 64` words. A share of all words
needs no word. -/
def chance (share : Nat) (g : γ) : Bool × γ :=
  if Number.twoPow 64 ≤ share then (true, g)
  else
    match draw64 g with
    | (word, g) => (word.toNat < share, g)

/-- The number of low words that are kept for a bound: as large a multiple of the bound as doubling
it reaches within 32 bits. -/
def kept (bound : Nat) : Nat :=
  bound * Number.twoPow (31 - Nat.log2 bound)

/-- A number below a positive bound. A word times the bound is split in two words: the high one is
the number, and the low one says whether it counts. After `fuel` words that do not count, the next
one does. -/
def below (bound : Nat) : (fuel : Nat) → γ → Nat × γ
  | 0, g =>
    match draw32 g with
    | (word, g) => (word.toNat * bound / Number.twoPow 32, g)
  | fuel + 1, g =>
    match draw32 g with
    | (word, g) =>
      let product := word.toNat * bound
      if product % Number.twoPow 32 < kept bound then (product / Number.twoPow 32, g)
      else below bound fuel g

/-- One of the items of a list. -/
def choose? {α : Type} (l : List α) (g : γ) : Option α × γ :=
  if l.isEmpty then (none, g)
  else
    match below l.length 256 g with
    | (i, g) => (l[i]?, g)

end Generator

end TaskTable
