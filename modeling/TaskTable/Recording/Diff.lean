import TaskTable.Recording.Transcript
import TaskTable.Text.Blank
import TaskTable.Text.Lines

/-!
# Comparing transcripts

The difference of two transcripts line by line, whatever their stamps are. What both have at either
end is left out. The rest is split by divide and conquer along a longest common subsequence: each
half of the one side is matched with that part of the other at which the two halves together have
most in common.
-/

namespace TaskTable
namespace Transcript

/-! ## Normal form -/

/-- A line without its stamp: what follows the first `] `. -/
def afterStamp : List Char → Option (List Char)
  | [] => none
  | ']' :: ' ' :: rest => some rest
  | _ :: rest => afterStamp rest

/-- A line without its stamp, if it has one. -/
def dropStamp (line : List Char) : List Char :=
  match line with
  | '[' :: '+' :: _ => (afterStamp line).getD line
  | _ => line

/-- The lines of a transcript without blank lines, outer blanks and stamps. -/
def normalize (transcript : String) : List String :=
  (((Text.lines transcript.toList).map Text.trim).filter fun l => !l.isEmpty).map fun l =>
    String.ofList (dropStamp l)

/-! ## Common subsequences -/

section Rows

variable {α : Type} [DecidableEq α]

/-- The entries of a row after the first. `left` is the entry just made and `above` is the row
before, from the column to the left on. -/
def rowFrom (x : α) : (left : Nat) → (b : List α) → (above : List Nat) → List Nat
  | left, y :: ys, p :: p' :: ps =>
    let entry := if x = y then p + 1 else max p' left
    entry :: rowFrom x entry ys (p' :: ps)
  | _, _, _ => []

/-- The row after one more item `x` of the first list. -/
def nextRow (x : α) (b : List α) (above : List Nat) : List Nat :=
  0 :: rowFrom x 0 b above

/-- The lengths of the longest common subsequences of `a` with each beginning of `b`. -/
def frontRow (a b : List α) : List Nat :=
  a.foldl (fun above x => nextRow x b above) (List.replicate (b.length + 1) 0)

/-- The lengths of the longest common subsequences of `a` with each end of `b`, the whole first. -/
def backRow (a b : List α) : List Nat :=
  (frontRow a.reverse b.reverse).reverse

/-- The place of the largest number of a list; of several, the first. -/
def firstMaxIdx : List Nat → Nat
  | [] => 0
  | n :: ns =>
    match ns.max? with
    | none => 0
    | some m => if m ≤ n then 0 else firstMaxIdx ns + 1

/-- Where to cut `b` so that its parts have most in common with the halves of `a`. -/
def cut (a₁ a₂ b : List α) : Nat :=
  firstMaxIdx (List.zipWith (· + ·) (frontRow a₁ b) (backRow a₂ b))

/-- One line of a difference: an item that only the first list has, or only the second. -/
inductive Edit (α : Type)
  | added (x : α)
  | removed (x : α)
  deriving DecidableEq, Repr

/-- The difference to a list of a single item. -/
def editsOfOne (x : α) (b : List α) : List (Edit α) :=
  if x ∈ b then (b.erase x).map .removed else .added x :: b.map .removed

/-- The items that are not common to two lists, along a longest common subsequence. -/
def edits (a b : List α) : List (Edit α) :=
  match a, b with
  | [], b => b.map .removed
  | a, [] => a.map .added
  | [x], b => editsOfOne x b
  | x :: y :: rest, b =>
    let a := x :: y :: rest
    let a₁ := a.take (a.length / 2)
    let a₂ := a.drop (a.length / 2)
    let k := cut a₁ a₂ b
    edits a₁ (b.take k) ++ edits a₂ (b.drop k)
termination_by a.length
decreasing_by
  all_goals simp_all only [List.length_take, List.length_drop, List.length_cons]
  all_goals omega

/-- The length of what two lists have in common at their front. -/
def commonFront : List α → List α → Nat
  | x :: xs, y :: ys => if x = y then commonFront xs ys + 1 else 0
  | _, _ => 0

end Rows

/-! ## Differences -/

/-- The difference of two lists of lines. What they share at either end is left out first. Lists
that share no line at all differ in all of their lines, the first list's before the second's. -/
def lineEdits (a b : List String) : List (Edit String) :=
  let front := commonFront a b
  let a := a.drop front
  let b := b.drop front
  let back := commonFront a.reverse b.reverse
  let a := a.take (a.length - back)
  let b := b.take (b.length - back)
  if b.any fun y => a.contains y then edits a b
  else a.map Edit.added ++ b.map Edit.removed

/-- A line of a difference. -/
def editText : Edit String → String
  | .added l => "+ " ++ l
  | .removed l => "- " ++ l

/-- The difference of two transcripts: `+` before the lines that only `actual` has and `-` before
those that only `expected` has. It is empty when they tell the same. -/
def diff (actual expected : String) : String :=
  "\n".intercalate ((lineEdits (normalize actual) (normalize expected)).map editText)

end Transcript

/-- The difference of a recording's transcript to another transcript. -/
def Recording.diff (r : Recording) (expected : String) : String :=
  Transcript.diff r.transcript expected

end TaskTable
