/-!
# Hexadecimal digits

Digits to the base sixteen, written and read, and the characters that are given by the digits of
their code points.
-/

namespace TaskTable
namespace Number

/-- The hexadecimal digit for a number below 16. -/
def hexDigit (n : Nat) : Char :=
  ("0123456789abcdef".toList).getD n '0'

/-- The number that a hexadecimal digit stands for. -/
def hexValue? (c : Char) : Option Nat :=
  if c.isDigit then some (c.toNat - '0'.toNat)
  else if 'a' ≤ c ∧ c ≤ 'f' then some (c.toNat - 'a'.toNat + 10)
  else if 'A' ≤ c ∧ c ≤ 'F' then some (c.toNat - 'A'.toNat + 10)
  else none

/-- Whether a character is a digit to a base of at most sixteen. -/
def isDigitOf (base : Nat) (c : Char) : Bool :=
  (hexValue? c).any (· < base)

/-- The number that digits to a base stand for. -/
def ofDigitsOf (base : Nat) (ds : List Char) : Nat :=
  ds.foldl (fun n d => base * n + (hexValue? d).getD 0) 0

/-- The character with a code point. -/
def charOfCode? (n : Nat) : Option Char :=
  if n < 0xD800 ∨ (0xE000 ≤ n ∧ n < 0x110000) then some (Char.ofNat n) else none

/-- The character whose code point hexadecimal digits stand for. -/
def charOfHex? (ds : List Char) : Option Char :=
  if ds.all (isDigitOf 16) then charOfCode? (ofDigitsOf 16 ds) else none

end Number
end TaskTable
