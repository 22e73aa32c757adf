import TaskTable.Number.Hexadecimal
import TaskTable.Number.Power

/-!
# SHA-256

The digest that names the text a table was compiled from. The message is padded with a one bit, zero
bits and its length to whole blocks of 64 bytes; the chain state starts at a fixed value and absorbs
one block after the other.
-/

namespace TaskTable
namespace Digest

/-- The eight words that the chain starts with. -/
def initialState : List UInt32 :=
  [0x6a09e667, 0xbb67ae85, 0x3c6ef372, 0xa54ff53a, 0x510e527f, 0x9b05688c, 0x1f83d9ab, 0x5be0cd19]

/-- The constants of the 64 rounds. -/
def roundConstants : List UInt32 :=
  [0x428a2f98, 0x71374491, 0xb5c0fbcf, 0xe9b5dba5, 0x3956c25b, 0x59f111f1, 0x923f82a4, 0xab1c5ed5,
    0xd807aa98, 0x12835b01, 0x243185be, 0x550c7dc3, 0x72be5d74, 0x80deb1fe, 0x9bdc06a7, 0xc19bf174,
    0xe49b69c1, 0xefbe4786, 0x0fc19dc6, 0x240ca1cc, 0x2de92c6f, 0x4a7484aa, 0x5cb0a9dc, 0x76f988da,
    0x983e5152, 0xa831c66d, 0xb00327c8, 0xbf597fc7, 0xc6e00bf3, 0xd5a79147, 0x06ca6351, 0x14292967,
    0x27b70a85, 0x2e1b2138, 0x4d2c6dfc, 0x53380d13, 0x650a7354, 0x766a0abb, 0x81c2c92e, 0x92722c85,
    0xa2bfe8a1, 0xa81a664b, 0xc24b8b70, 0xc76c51a3, 0xd192e819, 0xd6990624, 0xf40e3585, 0x106aa070,
    0x19a4c116, 0x1e376c08, 0x2748774c, 0x34b0bcb5, 0x391c0cb3, 0x4ed8aa4a, 0x5b9cca4f, 0x682e6ff3,
    0x748f82ee, 0x78a5636f, 0x84c87814, 0x8cc70208, 0x90befffa, 0xa4506ceb, 0xbef9a3f7, 0xc67178f2]

/-- A word turned right by `n` bits, for `n` from 1 to 31. -/
def rotateRight (x : UInt32) (n : UInt32) : UInt32 :=
  (x >>> n) ||| (x <<< (32 - n))

/-- Four bytes as a word, the highest first. -/
def wordOfBytes : List UInt8 → UInt32 :=
  List.foldl (fun w b => (w <<< 8) ||| b.toUInt32) 0

/-- A list cut into groups of `n`; a last group may be shorter. -/
def groupsOf (n : Nat) (l : List UInt8) : List (List UInt8) :=
  (List.range ((l.length + n - 1) / n)).map fun i => (l.drop (i * n)).take n

/-- The length of a message in bits, as eight bytes with the highest first. -/
def lengthBytes (n : Nat) : List UInt8 :=
  [56, 48, 40, 32, 24, 16, 8, 0].map fun shift => ((8 * n) >>> shift).toUInt8

/-- A message padded to whole blocks of 64 bytes. -/
def pad (message : List UInt8) : List UInt8 :=
  message ++ 0x80 :: List.replicate ((119 - message.length % 64) % 64) 0
    ++ lengthBytes message.length

/-- The next word of the message schedule. The words so far are given with the latest first. -/
def nextWord (recent : List UInt32) : UInt32 :=
  let word (back : Nat) := recent.getD (back - 1) 0
  let a := word 15
  let b := word 2
  let s0 := rotateRight a 7 ^^^ rotateRight a 18 ^^^ (a >>> 3)
  let s1 := rotateRight b 17 ^^^ rotateRight b 19 ^^^ (b >>> 10)
  word 16 + s0 + word 7 + s1

/-- A schedule, latest word first, grown by `n` words. -/
def extendSchedule : Nat → List UInt32 → List UInt32
  | 0, recent => recent
  | n + 1, recent => extendSchedule n (nextWord recent :: recent)

/-- The 64 words of the schedule of one block. -/
def schedule (block : List UInt8) : List UInt32 :=
  (extendSchedule 48 ((groupsOf 4 block).map wordOfBytes).reverse).reverse

/-- One round on the eight working words. -/
def round (state : List UInt32) (input : UInt32 × UInt32) : List UInt32 :=
  match state with
  | [a, b, c, d, e, f, g, h] =>
    let s1 := rotateRight e 6 ^^^ rotateRight e 11 ^^^ rotateRight e 25
    let choose := (e &&& f) ^^^ (~~~e &&& g)
    let t1 := h + s1 + choose + input.1 + input.2
    let s0 := rotateRight a 2 ^^^ rotateRight a 13 ^^^ rotateRight a 22
    let majority := (a &&& b) ^^^ (a &&& c) ^^^ (b &&& c)
    [t1 + (s0 + majority), a, b, c, d + t1, e, f, g]
  | other => other

/-- The chain state after one more block. -/
def compress (state : List UInt32) (block : List UInt8) : List UInt32 :=
  List.zipWith (· + ·) state ((roundConstants.zip (schedule block)).foldl round state)

/-- The chain state after all blocks of a message. -/
def chain (message : List UInt8) : List UInt32 :=
  (groupsOf 64 (pad message)).foldl compress initialState

/-- A word as eight hexadecimal digits. -/
def hexWord (w : UInt32) : List Char :=
  [7, 6, 5, 4, 3, 2, 1, 0].map fun i => Number.hexDigit (w.toNat / Number.twoPow (4 * i) % 16)

/-- The digest of a text's UTF-8 bytes, in lower-case hexadecimal digits. -/
def sha256 (text : String) : String :=
  String.ofList ((chain text.toUTF8.toList).flatMap hexWord)

end Digest
end TaskTable
