/-!
# Runs of characters

A run of characters that are all of one kind is taken off a text as a whole, if the text behind it
stops the run.
-/

namespace TaskTable
namespace Grammar

/-- A text that does not begin with a character in `p`. -/
def Stops (p : Char → Bool) (s : List Char) : Prop :=
  ∀ c ∈ s.head?, p c = false

theorem stops_nil (p : Char → Bool) : Stops p [] :=
  fun _ h => by cases h

theorem stops_cons {p : Char → Bool} {c : Char} (h : p c = false) (s : List Char) :
    Stops p (c :: s) := by
  intro d hd
  cases hd
  exact h

theorem stops_of_ne {c d : Char} (h : c ≠ d) (s : List Char) : Stops (· == d) (c :: s) := by
  apply stops_cons
  exact beq_eq_false_iff_ne.2 h

/-- What is left behind a run does not go on with it. -/
theorem stops_dropWhile (p : Char → Bool) (s : List Char) : Stops p (s.dropWhile p) := by
  intro c hc
  have hhead := List.head?_dropWhile_not p s
  rw [Option.mem_def.1 hc] at hhead
  exact hhead

/-- A run in front of a text does not matter to a kind that it has nothing of. -/
theorem stops_append {p : Char → Bool} {w rest : List Char} (hw : ∀ c ∈ w, p c = false)
    (hrest : Stops p rest) : Stops p (w ++ rest) := by
  cases w with
  | nil => exact hrest
  | cons c cs => exact stops_cons (hw c List.mem_cons_self) _

/-- A run begins with a character of its kind. -/
theorem append_ne_cons {p : Char → Bool} {w : List Char} (hne : w ≠ [])
    (hw : ∀ c ∈ w, p c = true) {c : Char} (hc : p c = false) (rest more : List Char) :
    w ++ rest ≠ c :: more := by
  cases w with
  | nil => exact absurd rfl hne
  | cons d ds =>
    intro heq
    injection heq with hd _
    have hd' := hw d List.mem_cons_self
    rw [hd, hc] at hd'
    cases hd'

theorem takeWhile_eq_nil_of_stops {p : Char → Bool} {s : List Char} (h : Stops p s) :
    s.takeWhile p = [] := by
  cases s with
  | nil => rfl
  | cons c cs => exact List.takeWhile_cons_of_neg (by simp [h c rfl])

theorem dropWhile_eq_self_of_stops {p : Char → Bool} {s : List Char} (h : Stops p s) :
    s.dropWhile p = s := by
  cases s with
  | nil => rfl
  | cons c cs => exact List.dropWhile_cons_of_neg (by simp [h c rfl])

theorem takeWhile_of_stops {p : Char → Bool} {w rest : List Char} (hw : ∀ c ∈ w, p c = true)
    (hrest : Stops p rest) : (w ++ rest).takeWhile p = w := by
  rw [List.takeWhile_append_of_pos hw, takeWhile_eq_nil_of_stops hrest, List.append_nil]

theorem dropWhile_of_stops {p : Char → Bool} {w rest : List Char} (hw : ∀ c ∈ w, p c = true)
    (hrest : Stops p rest) : (w ++ rest).dropWhile p = rest := by
  rw [List.dropWhile_append_of_pos hw, dropWhile_eq_self_of_stops hrest]

end Grammar
end TaskTable
