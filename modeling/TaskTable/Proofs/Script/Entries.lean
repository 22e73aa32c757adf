import Mathlib.Data.List.Forall2
import TaskTable.Proofs.Grammar.VerifyScript
import TaskTable.Proofs.Text.Lines
import TaskTable.Script.Read

/-!
# Verification scripts and their lines

A verification script is read as one text, in which a line end is a gap like any other. A script
with one entry on each line is read line by line all the same; but a state whose value is missing
takes the value of a later line, and what is missing for good is missed where the text breaks off.
-/

namespace TaskTable
namespace Script

open Grammar

/-! ## Entries on lines -/

/-- A line with one entry on it and nothing else. -/
def IsEntryLine (e : String × String) (l : List Char) : Prop :=
  ∃ g, IsGap g ∧ SpellsEntry e l g

/-- The lines of a script that hold more than a gap once their comments are off. -/
def filledLines (source : List Char) : List (List Char) :=
  ((Text.lines source).map Text.stripComment).filter fun l => !l.all isGap

/-- What stands below a line begins with a line feed, if anything does. -/
theorem unlines_cons_gap (l : List Char) (ls : List (List Char)) :
    ∃ g, IsGap g ∧ Text.unlines (l :: ls) = l ++ (g ++ Text.unlines ls) ∧
      Stops isValueChar (g ++ Text.unlines ls) := by
  cases ls with
  | nil => exact ⟨[], isGap_nil, by simp [Text.unlines], stops_nil _⟩
  | cons m ms =>
    refine ⟨['\n'], ?_, Text.unlines_cons_cons l m ms, stops_cons (by decide) _⟩
    intro c hc
    rw [List.mem_singleton.1 hc]
    rfl

/-- Lines with an entry on each, and gaps between them, are a row of entries. -/
theorem spellsEntries_unlines {ls : List (List Char)} {es : List (String × String)}
    (h : List.Forall₂ IsEntryLine es (ls.filter fun l => !l.all isGap)) :
    SpellsEntries es (Text.unlines ls) := by
  induction ls generalizing es with
  | nil =>
    cases h
    exact .nil [] isGap_nil
  | cons l ls ih =>
    obtain ⟨g, hg, htext, hstops⟩ := unlines_cons_gap l ls
    rw [htext]
    by_cases hblank : l.all isGap = true
    · -- a blank line is part of the gap around it
      rw [List.filter_cons_of_neg (by simp [hblank])] at h
      exact ((ih h).gap_append hg).gap_append (List.all_eq_true.1 hblank)
    · rw [List.filter_cons_of_pos (by simp [hblank])] at h
      cases h with
      | cons he hes =>
        obtain ⟨g', hg', hentry⟩ := he
        refine .cons _ _ _ _ (hentry.append hg' hstops) ?_
        exact ((ih hes).gap_append hg).gap_append hg'

/-! ## Whole scripts -/

/-- Each line feed in front of a point puts it one line further down. -/
theorem line_place (line column : Nat) (s : List Char) :
    (place line column s).1 = line + s.count '\n' := by
  fun_induction place line column s with
  | case1 line column => simp
  | case2 line column cs ih =>
    rw [ih, List.count_cons_self]
    omega
  | case3 line column cs ih =>
    rw [ih, List.count_cons_of_ne (by decide), List.count_cons_self]
    omega
  | case4 line column c cs hfeed hreturn ih =>
    rw [ih, List.count_cons_of_ne hfeed]

theorem readEntries_ok_iff {source : String} {es : List (String × String)} :
    readEntries source = .ok es ↔ SpellsEntries es (stripComments source.toList) := by
  rw [← parse_verifyScript_iff]
  unfold readEntries readAll
  dsimp only
  cases verifyScript.parse (stripComments source.toList) <;> simp

/-- A script that is refused is so at the point where its text breaks off. -/
theorem readEntries_error {source : String} {e : SourceError} (h : readEntries source = .error e) :
    ∃ before rest wanted, stripComments source.toList = before ++ rest ∧
      BreaksOff (before ++ rest) rest ∧
      e = .unexpected (before.count '\n' + 1) (place 1 1 before).2 wanted := by
  unfold readEntries readAll at h
  dsimp only at h
  cases hparse : verifyScript.parse (stripComments source.toList) with
  | ok es =>
    rw [hparse] at h
    cases h
  | error b =>
    rw [hparse] at h
    cases h
    obtain ⟨rest, hbreak, hrest⟩ := breaksOff_of_parse hparse
    obtain ⟨before, htext⟩ := hbreak.exists_append
    have hbefore : (stripComments source.toList).take
        ((stripComments source.toList).length - b.rest) = before := by
      rw [htext, hrest, List.length_append, Nat.add_sub_cancel, List.take_left]
    refine ⟨before, rest, b.rules, htext, htext ▸ hbreak, ?_⟩
    rw [hbefore, ← Nat.add_comm 1, ← line_place 1 1 before]

/-- A verification script is read as one text: it gives the entries of which its text is a row, and
so one for each line where every line that is not blank has just one. Otherwise the error is placed
where a state or a value is missing, on whatever line that is. -/
theorem verification_script_read_whole (source : String) :
    (∀ es, readEntries source = .ok es ↔ SpellsEntries es (stripComments source.toList)) ∧
      (∀ es, List.Forall₂ IsEntryLine es (filledLines source.toList) →
        readEntries source = .ok es) ∧
      ∀ e, readEntries source = .error e →
        ∃ before rest wanted, stripComments source.toList = before ++ rest ∧
          BreaksOff (before ++ rest) rest ∧
          e = .unexpected (before.count '\n' + 1) (place 1 1 before).2 wanted := by
  refine ⟨fun es => readEntries_ok_iff, fun es h => ?_, fun e h => readEntries_error h⟩
  exact readEntries_ok_iff.2 (spellsEntries_unlines h)

/-- A script with a remark and a blank line, and one whose last value is missing. -/
theorem verification_script_read_whole_poll :
    readEntries "poll again # twice\n\npoll 'all done'\n" =
        .ok [("poll", "again"), ("poll", "all done")] ∧
      ∃ before rest, stripComments "poll again\npoll # done\n".toList = before ++ rest ∧
        BreaksOff (before ++ rest) rest ∧ before.count '\n' + 1 = 2 := by
  have hname : IsName "poll" := by decide
  have hspace : IsGap [' '] := fun c hc => by rw [List.mem_singleton.1 hc]; rfl
  constructor
  · obtain ⟨-, hlines, -⟩ :=
      verification_script_read_whole "poll again # twice\n\npoll 'all done'\n"
    refine hlines _ (.cons ⟨[' '], hspace, ?_⟩ (.cons ⟨[], isGap_nil, ?_⟩ .nil))
    · exact .mk [] [' '] "again".toList [' '] "poll" "again" isGap_nil hname hspace
        (.bare _ (by decide) (List.all_eq_true.1 rfl)) (stops_cons (by decide) _)
        fun _ => stops_cons (by decide) _
    · exact .mk [] [' '] "'all done'".toList [] "poll" "all done" isGap_nil hname hspace
        (.single "all done".toList (by decide)) (stops_cons (by decide) _) fun _ => stops_nil _
  · obtain ⟨-, -, herror⟩ := verification_script_read_whole "poll again\npoll # done\n"
    obtain ⟨before, rest, wanted, htext, hbreak, hplace⟩ :=
      herror (.unexpected 2 6 [.value]) rfl
    injection hplace with hline _ _
    exact ⟨before, rest, htext, hbreak, hline.symm⟩

/-- A state takes its value from the line below, so that a script is read in which no line is an
entry. -/
theorem entry_on_two_lines :
    readEntries "a\nok\n" = .ok [("a", "ok")] ∧
      ∀ es, ¬ List.Forall₂ IsEntryLine es (filledLines "a\nok\n".toList) := by
  refine ⟨rfl, fun es h => ?_⟩
  have hlines : filledLines "a\nok\n".toList = [['a'], ['o', 'k']] := by decide
  rw [hlines] at h
  cases h with
  | cons he _ =>
    obtain ⟨g, -, hentry⟩ := he
    have hnone : gapEntry.read ['a'] = none := rfl
    rw [read_gapEntry_iff.2 hentry] at hnone
    cases hnone

end Script
end TaskTable
