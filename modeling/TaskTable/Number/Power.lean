/-!
# Powers

Powers of two and of ten. Words and bounds are sized by the one, decimals are scaled by the other.
Words of 32 bits count up to a power of two and begin again.
-/

namespace TaskTable
namespace Number

/-- Two to a power. -/
def twoPow (n : Nat) : Nat :=
  Nat.pow 2 n

/-- Ten to a power. -/
def tenPow (n : Nat) : Nat :=
  Nat.pow 10 n

/-- The number after one, as words of 32 bits count: the last one is followed by 0. -/
def next32 (n : Nat) : Nat :=
  (n + 1) % twoPow 32

end Number
end TaskTable
