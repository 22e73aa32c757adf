import TaskTable.Number.Hexadecimal

/-!
# Task ids

Ids of new tasks: UUIDs of version 4, made from sixteen random bytes.
-/

namespace TaskTable
namespace Task

/-- The two hexadecimal digits of a byte. -/
def byteText (b : Nat) : List Char :=
  [Number.hexDigit (b / 16 % 16), Number.hexDigit (b % 16)]

/-- The bytes of an id, with the version in the seventh and the variant in the ninth. -/
def markVersion : List Nat → List Nat
  | a :: b :: c :: d :: e :: f :: g :: h :: i :: rest =>
    a :: b :: c :: d :: e :: f :: (g % 16 + 0x40) :: h :: (i % 64 + 0x80) :: rest
  | bytes => bytes

/-- The id that sixteen bytes make: dashes come after the fourth, sixth, eighth and tenth. -/
def idOfBytes (bytes : List Nat) : String :=
  let bytes := markVersion bytes
  let part (start length : Nat) : String :=
    String.ofList (((bytes.drop start).take length).flatMap byteText)
  "-".intercalate [part 0 4, part 4 2, part 6 2, part 8 2, part 10 6]

end Task
end TaskTable
