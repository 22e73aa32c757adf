import TaskTable.Proofs.Check.Clean

/-!
# Issues by kind

Which rule finds the issues of a kind: those with blocks that are missing come from the rules about
required states and targets, those with paths from the search for paths alone, whatever the catalog.
-/

namespace TaskTable
namespace Check

variable {t : Table} {c : Catalog} {i : Issue}

/-! ## The kinds of a rule -/

theorem kind_of_mem_requiredStateIssues (h : i ∈ requiredStateIssues t) :
    i.kind = .missingBlock := by
  obtain ⟨s, -, rfl⟩ := List.mem_map.1 h
  rfl

theorem kind_of_mem_danglingTargetIssues (h : i ∈ danglingTargetIssues t) :
    i.kind = .missingBlock := by
  obtain ⟨e, -, rfl⟩ := List.mem_map.1 h
  rfl

theorem kind_of_mem_pathIssues (h : i ∈ pathIssues t) : i.kind = .noPathToFinish := by
  obtain ⟨b, -, rfl⟩ := List.mem_map.1 h
  rfl

theorem kind_of_mem_spinIssues (h : i ∈ spinIssues t) : i.kind = .spinTransition := by
  obtain ⟨e, -, rfl⟩ := List.mem_map.1 h
  rfl

theorem kind_of_mem_handlerMethodIssues (h : i ∈ handlerMethodIssues t c) :
    i.kind = .missingStateMethod ∨ i.kind = .missingTransitionMethod := by
  rcases List.mem_append.1 h with h | h
  · obtain ⟨b, -, rfl⟩ := List.mem_map.1 h
    exact .inl rfl
  · obtain ⟨method, -, h⟩ := List.mem_filterMap.1 h
    unfold missingSelectorIssue? at h
    split at h
    · cases h
    · obtain ⟨b, -, rfl⟩ := Option.map_eq_some_iff.1 h
      exact .inr rfl

theorem kind_of_mem_transitionValueIssues (h : i ∈ transitionValueIssues t c) :
    i.kind = .unrecognizedValue ∨ i.kind = .unusedValue := by
  obtain ⟨b, -, h⟩ := List.mem_flatMap.1 h
  split at h
  · rcases List.mem_append.1 h with h | h
    · obtain ⟨e, -, rfl⟩ := List.mem_map.1 h
      exact .inl rfl
    · unfold unhandledIssues at h
      split at h
      · cases h
      · obtain ⟨v, -, rfl⟩ := List.mem_map.1 h
        exact .inr rfl
  · cases h

/-! ## The rules of a kind -/

/-- Issues that are all of a kind are the issues of that kind. -/
theorem filter_kind {l : List Issue} {k : Kind} (h : ∀ i ∈ l, i.kind = k) :
    l.filter (fun i => i.kind == k) = l :=
  List.filter_eq_self.2 fun i hi => beq_iff_eq.2 (h i hi)

/-- Issues of which none is of a kind have none of that kind. -/
theorem filter_other_kind {l : List Issue} {k : Kind} (h : ∀ i ∈ l, i.kind ≠ k) :
    l.filter (fun i => i.kind == k) = [] :=
  List.filter_eq_nil_iff.2 fun i hi hk => h i hi (beq_iff_eq.1 hk)

/-- Only the rules about blocks and paths find missing blocks and missing paths. -/
theorem ofKind_structural (t : Table) (c : Option Catalog) {k : Kind}
    (hk : k = .missingBlock ∨ k = .noPathToFinish) :
    (run t c).ofKind k =
      (requiredStateIssues t ++ reachabilityIssues t).filter fun i => i.kind == k := by
  have hspin : (spinIssues t).filter (fun i => i.kind == k) = [] := by
    refine filter_other_kind fun i hi => ?_
    rw [kind_of_mem_spinIssues hi]
    rcases hk with rfl | rfl <;> decide
  have hhandlers : (c.elim [] (handlerMethodIssues t)).filter (fun i => i.kind == k) = [] := by
    refine filter_other_kind fun i hi => ?_
    cases c with
    | none => cases hi
    | some c =>
      rcases kind_of_mem_handlerMethodIssues hi with h | h <;> rw [h] <;>
        rcases hk with rfl | rfl <;> decide
  have hvalues : (c.elim [] (transitionValueIssues t)).filter (fun i => i.kind == k) = [] := by
    refine filter_other_kind fun i hi => ?_
    cases c with
    | none => cases hi
    | some c =>
      rcases kind_of_mem_transitionValueIssues hi with h | h <;> rw [h] <;>
        rcases hk with rfl | rfl <;> decide
  show (rules.flatMap fun r => r.issues t c).filter _ = _
  simp only [rules, List.flatMap_cons, List.flatMap_nil, List.append_nil, List.filter_append,
    hspin, hhandlers, hvalues]

/-- The missing blocks that are reported are those of required states and those of targets. -/
theorem ofKind_missingBlock (t : Table) (c : Option Catalog) :
    (run t c).ofKind .missingBlock = requiredStateIssues t ++ danglingTargetIssues t := by
  have hpaths : (pathIssues t).filter (fun i => i.kind == .missingBlock) = [] := by
    refine filter_other_kind fun i hi => ?_
    rw [kind_of_mem_pathIssues hi]
    decide
  rw [ofKind_structural t c (.inl rfl), reachabilityIssues, List.filter_append, List.filter_append,
    hpaths, filter_kind fun _ => kind_of_mem_requiredStateIssues,
    filter_kind fun _ => kind_of_mem_danglingTargetIssues, List.append_nil]

/-- Of the issues of the rule about targets and paths, those with paths come from the search. -/
theorem filter_reachabilityIssues (t : Table) :
    (reachabilityIssues t).filter (fun i => i.kind == .noPathToFinish) = pathIssues t := by
  have htargets : (danglingTargetIssues t).filter (fun i => i.kind == .noPathToFinish) = [] := by
    refine filter_other_kind fun i hi => ?_
    rw [kind_of_mem_danglingTargetIssues hi]
    decide
  rw [reachabilityIssues, List.filter_append, htargets,
    filter_kind fun _ => kind_of_mem_pathIssues, List.nil_append]

/-- The missing paths that are reported are those that the search for paths finds. -/
theorem ofKind_noPathToFinish (t : Table) (c : Option Catalog) :
    (run t c).ofKind .noPathToFinish = pathIssues t := by
  have hrequired : (requiredStateIssues t).filter (fun i => i.kind == .noPathToFinish) = [] := by
    refine filter_other_kind fun i hi => ?_
    rw [kind_of_mem_requiredStateIssues hi]
    decide
  rw [ofKind_structural t c (.inr rfl), List.filter_append, hrequired, List.nil_append,
    filter_reachabilityIssues]

end Check
end TaskTable
