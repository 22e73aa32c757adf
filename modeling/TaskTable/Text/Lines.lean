/-!
# Lines

A text as a list of lines. A line ends at a line feed, which a carriage return may precede; a
carriage return anywhere else is an ordinary character. An empty remainder is no line, so a text
that ends in a line feed has no empty last line.
-/

namespace TaskTable
namespace Text

/-- The lines of a text, without their ends. -/
def lines : List Char → List (List Char)
  | [] => []
  | '\n' :: cs => [] :: lines cs
  | '\r' :: '\n' :: cs => [] :: lines cs
  | c :: cs =>
    match lines cs with
    | [] => [[c]]
    | l :: ls => (c :: l) :: ls

/-- Lines set below each other, with a line feed between any two. -/
def unlines : List (List Char) → List Char
  | [] => []
  | [l] => l
  | l :: ls => l ++ '\n' :: unlines ls

/-- The number of bytes of a text in UTF-8. -/
def byteLength (s : List Char) : Nat :=
  s.foldr (fun c n => c.utf8Size + n) 0

end Text
end TaskTable
