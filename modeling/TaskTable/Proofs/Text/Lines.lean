import Mathlib.Data.List.Basic
import TaskTable.Text.Lines

/-!
# Lines set below each other

A text that is made of lines is read as these lines, whether each ends in a line feed or a line feed
stands between any two.
-/

namespace TaskTable
namespace Text

/-! ## One line -/

/-- A line loses the carriage return that would belong to the line feed behind it. -/
def withoutReturn (l : List Char) : List Char :=
  if l.getLast? = some '\r' then l.dropLast else l

theorem withoutReturn_of_getLast? {l : List Char} (h : l.getLast? ≠ some '\r') :
    withoutReturn l = l :=
  if_neg h

theorem withoutReturn_cons_cons (c d : Char) (l : List Char) :
    withoutReturn (c :: d :: l) = c :: withoutReturn (d :: l) := by
  unfold withoutReturn
  rw [List.getLast?_cons_cons, List.dropLast_cons_cons]
  split <;> rfl

/-- A character that begins no line end goes to the front of the first line. -/
theorem lines_cons {c : Char} {s : List Char} (hfeed : c ≠ '\n')
    (hreturn : ∀ s', c = '\r' → s ≠ '\n' :: s') :
    lines (c :: s) = match lines s with
      | [] => [[c]]
      | l :: ls => (c :: l) :: ls :=
  lines.eq_4 c s hfeed hreturn

/-- The first line of a text ends at its first line feed. -/
theorem lines_append_feed {l : List Char} (h : '\n' ∉ l) (rest : List Char) :
    lines (l ++ '\n' :: rest) = withoutReturn l :: lines rest := by
  induction l with
  | nil => rfl
  | cons c cs ih =>
    obtain ⟨hc, hcs⟩ := not_or.1 (mt List.mem_cons.2 h)
    have hrest := ih hcs
    cases cs with
    | nil =>
      by_cases hreturn : c = '\r'
      · subst hreturn
        rfl
      · rw [withoutReturn_of_getLast? (by simpa using hreturn)]
        rw [List.cons_append, lines_cons (Ne.symm hc) fun _ he => absurd he hreturn, hrest]
        rfl
    | cons d ds =>
      -- the next character is one of the line, and no line feed
      have hd : ∀ s', c = '\r' → (d :: ds) ++ '\n' :: rest ≠ '\n' :: s' := by
        intro s' _ heq
        injection heq with hd _
        exact hcs (hd ▸ List.mem_cons_self)
      rw [List.cons_append, lines_cons (Ne.symm hc) hd, hrest, withoutReturn_cons_cons]

theorem lines_append_newline {l : List Char} (hline : '\n' ∉ l) (hreturn : l.getLast? ≠ some '\r')
    (rest : List Char) : lines (l ++ '\n' :: rest) = l :: lines rest := by
  rw [lines_append_feed hline, withoutReturn_of_getLast? hreturn]

/-- A text without a line feed is one line, unless it is empty. -/
theorem lines_of_not_mem {l : List Char} (h : '\n' ∉ l) (hne : l ≠ []) : lines l = [l] := by
  induction l with
  | nil => exact absurd rfl hne
  | cons c cs ih =>
    obtain ⟨hc, hcs⟩ := not_or.1 (mt List.mem_cons.2 h)
    have hpair : ∀ s', c = '\r' → cs ≠ '\n' :: s' := by
      intro s' _ heq
      exact hcs (heq ▸ List.mem_cons_self)
    rw [lines_cons (Ne.symm hc) hpair]
    cases cs with
    | nil => rfl
    | cons d ds => rw [ih hcs (List.cons_ne_nil d ds)]

/-- No line of a text holds a line feed. -/
theorem not_mem_of_mem_lines {s l : List Char} (h : l ∈ lines s) : '\n' ∉ l := by
  fun_induction lines s generalizing l with
  | case1 => cases h
  | case2 cs ih | case3 cs ih =>
    rcases List.mem_cons.1 h with rfl | h
    · exact List.not_mem_nil
    · exact ih h
  | case4 c cs hfeed _ heq ih =>
    rw [List.mem_singleton.1 h]
    intro hmem
    exact hfeed (List.mem_singleton.1 hmem).symm
  | case5 c cs hfeed _ m ms heq ih =>
    rw [heq] at ih
    rcases List.mem_cons.1 h with rfl | h
    · intro hmem
      rcases List.mem_cons.1 hmem with hc | hmem
      · exact hfeed hc.symm
      · exact ih List.mem_cons_self hmem
    · exact ih (List.mem_cons_of_mem _ h)

/-! ## Many lines -/

/-- Lines that each end in a line feed stand at the front of a text as they are. -/
theorem lines_flatMap_append {ls : List (List Char)} (h : ∀ l ∈ ls, '\n' ∉ l) (rest : List Char) :
    lines (ls.flatMap (· ++ ['\n']) ++ rest) = ls.map withoutReturn ++ lines rest := by
  induction ls with
  | nil => rfl
  | cons l ls ih =>
    have hls := ih fun m hm => h m (List.mem_cons_of_mem _ hm)
    rw [List.flatMap_cons, List.append_assoc, List.append_assoc, List.singleton_append,
      lines_append_feed (h l List.mem_cons_self), hls, List.map_cons, List.cons_append]

theorem unlines_cons (l : List Char) (ls : List (List Char)) :
    unlines (l :: ls) = l ++ ls.flatMap fun m => '\n' :: m := by
  induction ls generalizing l with
  | nil => simp [unlines]
  | cons m ms ih =>
    rw [unlines, ih, List.flatMap_cons, List.cons_append]
    exact List.cons_ne_nil m ms

theorem unlines_cons_cons (l m : List Char) (ls : List (List Char)) :
    unlines (l :: m :: ls) = l ++ '\n' :: unlines (m :: ls) := by
  rw [unlines]
  exact List.cons_ne_nil m ls

/-- A line that stands in a text as it is: it holds something, and no line end is part of it. -/
structure IsLine (l : List Char) : Prop where
  nonempty : l ≠ []
  oneLine : '\n' ∉ l
  noReturn : l.getLast? ≠ some '\r'

/-- Lines with line feeds between them are read as they are. -/
theorem lines_unlines {ls : List (List Char)} (h : ∀ l ∈ ls, IsLine l) :
    lines (unlines ls) = ls := by
  induction ls with
  | nil => rfl
  | cons l ls ih =>
    have hl := h l List.mem_cons_self
    have hls := ih fun m hm => h m (List.mem_cons_of_mem _ hm)
    cases ls with
    | nil => exact lines_of_not_mem hl.oneLine hl.nonempty
    | cons m ms =>
      rw [unlines_cons_cons, lines_append_newline hl.oneLine hl.noReturn, hls]

/-- Texts joined with line feeds are lines set below each other. -/
theorem toList_intercalate_newline (ls : List String) :
    ("\n".intercalate ls).toList = unlines (ls.map String.toList) := by
  rw [String.toList_intercalate]
  generalize ls.map String.toList = ms
  induction ms with
  | nil => rfl
  | cons l ls ih =>
    cases ls with
    | nil => simp [List.intercalate, unlines]
    | cons m ms =>
      rw [List.intercalate_cons_cons, ih, unlines_cons_cons, List.append_assoc]
      rfl

end Text
end TaskTable
