import TaskTable.Proofs.Grammar.Runs
import TaskTable.Text.Blank

/-!
# Trimming

A trimmed text does not end with a blank, and a text without blanks at its ends is left as it is.
-/

namespace TaskTable
namespace Text

open Grammar (Stops stops_dropWhile dropWhile_eq_self_of_stops)

/-! ## What is left -/

theorem trimEnd_isPrefix (s : List Char) : List.IsPrefix (trimEnd s) s := by
  have hsuffix := List.dropWhile_suffix (l := s.reverse) isBlank
  rw [← List.reverse_prefix, List.reverse_reverse] at hsuffix
  exact hsuffix

theorem trim_sublist (s : List Char) : (trim s).Sublist s :=
  (trimEnd_isPrefix _).sublist.trans (List.dropWhile_suffix _).sublist

/-- A trimmed text does not end with a blank. -/
theorem stops_reverse_trim (s : List Char) : Stops isBlank (trim s).reverse := by
  unfold trim trimEnd
  rw [List.reverse_reverse]
  exact stops_dropWhile isBlank _

/-! ## What stays as it is -/

theorem trimStart_of_stops {s : List Char} (h : Stops isBlank s) : trimStart s = s :=
  dropWhile_eq_self_of_stops h

theorem trim_of_stops {s : List Char} (h : Stops isBlank s) (h' : Stops isBlank s.reverse) :
    trim s = s := by
  unfold trim trimEnd
  rw [trimStart_of_stops h, dropWhile_eq_self_of_stops h', List.reverse_reverse]

end Text
end TaskTable
