import TaskTable.Grammar.Line
import TaskTable.Proofs.Grammar.Reading

/-!
# Names in table lines

Whatever stands for a name in a table line is one: not empty, and made of letters, digits, `_`, `-`
and `.` only.
-/

namespace TaskTable
namespace Grammar

open Reader

/-- A text that the table grammar takes for a name. -/
def IsName (s : String) : Prop :=
  s.toList ≠ [] ∧ ∀ c ∈ s.toList, isNameChar c = true

instance (s : String) : Decidable (IsName s) :=
  have : Decidable (∀ c ∈ s.toList, isNameChar c = true) := List.decidableBAll _ _
  inferInstanceAs (Decidable (_ ∧ _))

theorem gives_ident : ident.Gives IsName :=
  Gives.named _ <| (gives_run1 isNameChar).bind fun cs h =>
    gives_pure (by rw [IsName, String.toList_ofList]; exact h)

theorem gives_stateName : stateName.Gives IsName := gives_ident.named _

theorem gives_methodName : methodName.Gives IsName := gives_ident.named _

theorem gives_timerName : timerName.Gives IsName := gives_ident.named _

/-- The names in a line are names. -/
def Line.NamesValid : Line → Prop
  | .blockClose => True
  | .blockOpen state method timer =>
    IsName state ∧ (∀ m, method = some m → IsName m) ∧ ∀ t, timer = some t → IsName t
  | .assignment name _ => IsName name
  | .transition _ target _ => IsName target

theorem gives_blockOpen : blockOpen.Gives Line.NamesValid := by
  refine Gives.named _ (gives_stateName.bind fun state hstate => (gives_true _).bind fun _ _ => ?_)
  refine Gives.bind (P := fun o => ∀ m, o = some m → IsName m) ?_ fun method hmethod => ?_
  · exact Gives.opt <| (gives_true _).bind fun _ _ => (gives_true _).bind fun _ _ =>
      gives_methodName
  · refine (gives_true _).bind fun _ _ => ?_
    refine Gives.bind (P := fun o => ∀ t, o = some t → IsName t) ?_ fun timer htimer => ?_
    · refine Gives.opt <| (gives_true _).bind fun _ _ => (gives_true _).bind fun _ _ => ?_
      exact gives_timerName.bind fun t ht => (gives_true _).bind fun _ _ =>
        (gives_true _).bind fun _ _ => gives_pure ht
    · exact (gives_true _).bind fun _ _ => (gives_true _).bind fun _ _ =>
        gives_pure ⟨hstate, hmethod, htimer⟩

theorem gives_assignment : assignment.Gives Line.NamesValid :=
  Gives.named _ <| gives_ident.bind fun _ hname => (gives_true _).bind fun _ _ =>
    (gives_true _).bind fun _ _ => (gives_true _).bind fun _ _ => (gives_true _).bind fun _ _ =>
      gives_pure hname

theorem gives_transition : transition.Gives Line.NamesValid :=
  Gives.named _ <| (gives_true _).bind fun _ _ => (gives_true _).bind fun _ _ =>
    gives_stateName.bind fun _ htarget => (gives_true _).bind fun _ _ =>
      (gives_true _).bind fun _ _ => gives_pure htarget

/-- A table line has names only where names belong. -/
theorem gives_tableLine : tableLine.Gives Line.NamesValid := by
  have hclose : blockClose.Gives Line.NamesValid :=
    Gives.named _ <| (gives_true _).bind fun _ _ => gives_pure trivial
  refine Gives.named _ ((gives_true _).bind fun _ _ => ?_)
  refine Gives.bind (P := Line.NamesValid) ?_ fun line hline =>
    (gives_true _).bind fun _ _ => (gives_true _).bind fun _ _ => gives_pure hline
  exact hclose.orElse (gives_blockOpen.orElse (gives_assignment.orElse gives_transition))

/-- A line that is read as a whole has names only where names belong. -/
theorem namesValid_of_parse {s : List Char} {line : Line} (h : tableLine.parse s = .ok line) :
    line.NamesValid := by
  unfold Reader.parse at h
  split at h
  · next a rest hr =>
    cases h
    exact gives_tableLine s line rest hr
  · cases h

end Grammar
end TaskTable
