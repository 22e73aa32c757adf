import TaskTable.Proofs.Check.Kinds

/-!
# Missing blocks

`missing_blocks_exact`: the missing blocks that are reported for a compiled table are those of the
required states and of the targets that have none, each once. Two rules share the work; what keeps
them apart is the list of states seen before, with which the search for targets starts
(`mem_firstEdges`, `nodup_firstEdges`).
-/

namespace TaskTable
namespace Check

/-! ## First edges -/

/-- An edge is reported if its target is wanted and new, and no edge before it has the target. -/
theorem mem_firstEdges {wanted : String → Bool} {seen : List String}
    {es : List (Block × Transition)} {e : Block × Transition} :
    e ∈ firstEdges wanted seen es ↔ wanted e.2.target = true ∧ e.2.target ∉ seen ∧
      es.find? (fun e' => e'.2.target == e.2.target) = some e := by
  induction es generalizing seen with
  | nil => simp [firstEdges]
  | cons hd es ih =>
    rw [firstEdges, List.find?_cons]
    split
    · next hskip =>
      rw [ih]
      refine and_congr_right fun hwanted => and_congr_right fun hseen => ?_
      -- the edge at the head is passed over, so its target is another one
      have hne : (hd.2.target == e.2.target) = false := by
        refine beq_false_of_ne fun heq => ?_
        simp [heq, hwanted, hseen] at hskip
      rw [hne]
    · next hkeep =>
      have hkeep : wanted hd.2.target = true ∧ hd.2.target ∉ seen := by simpa using hkeep
      rw [List.mem_cons, ih]
      by_cases htarget : hd.2.target = e.2.target
      · rw [beq_iff_eq.2 htarget, ← htarget]
        constructor
        · rintro (rfl | ⟨-, hnew, -⟩)
          · exact ⟨hkeep.1, hkeep.2, rfl⟩
          · exact absurd List.mem_cons_self hnew
        · rintro ⟨-, -, hfirst⟩
          exact .inl (Option.some.inj hfirst).symm
      · have hne : e ≠ hd := fun heq => htarget (heq ▸ rfl)
        rw [beq_false_of_ne htarget]
        simp [hne, Ne.symm htarget]

/-- No two edges that are reported have the same target. -/
theorem nodup_firstEdges (wanted : String → Bool) (seen : List String)
    (es : List (Block × Transition)) :
    ((firstEdges wanted seen es).map fun e => e.2.target).Nodup := by
  induction es generalizing seen with
  | nil => exact List.nodup_nil
  | cons hd es ih =>
    rw [firstEdges]
    split
    · exact ih seen
    · rw [List.map_cons, List.nodup_cons]
      refine ⟨fun hmem => ?_, ih _⟩
      obtain ⟨e, he, heq⟩ := List.mem_map.1 hmem
      have hnew := (mem_firstEdges.1 he).2.1
      exact hnew (heq ▸ List.mem_cons_self)

/-- A wanted and new target is reported if and only if some edge has it. -/
theorem mem_targets_firstEdges {wanted : String → Bool} {seen : List String}
    {es : List (Block × Transition)} {s : String} :
    s ∈ (firstEdges wanted seen es).map (fun e => e.2.target) ↔
      wanted s = true ∧ s ∉ seen ∧ ∃ e ∈ es, e.2.target = s := by
  rw [List.mem_map]
  constructor
  · rintro ⟨e, he, rfl⟩
    obtain ⟨hwanted, hseen, hfirst⟩ := mem_firstEdges.1 he
    exact ⟨hwanted, hseen, e, List.mem_of_find?_eq_some hfirst, rfl⟩
  · rintro ⟨hwanted, hseen, e, he, rfl⟩
    obtain ⟨first, hfirst⟩ : ∃ first, es.find? (fun e' => e'.2.target == e.2.target) = some first :=
      Option.isSome_iff_exists.1 (List.find?_isSome.2 ⟨e, he, beq_self_eq_true _⟩)
    have htarget : first.2.target = e.2.target := by simpa using List.find?_some hfirst
    refine ⟨first, mem_firstEdges.2 ⟨?_, ?_, ?_⟩, htarget⟩
    · rw [htarget, hwanted]
    · rw [htarget]; exact hseen
    · rw [htarget, hfirst]

/-! ## The report -/

theorem mem_edges {t : Table} {e : Block × Transition} :
    e ∈ edges t ↔ e.1 ∈ t.blocks ∧ e.2 ∈ e.1.transitions := by
  obtain ⟨b, tr⟩ := e
  simp [edges]

/-- The targets that are reported are neither known nor required. -/
theorem states_danglingTargetIssues (t : Table) :
    (danglingTargetIssues t).map (·.state) =
      (firstEdges (fun s => !t.isKnown s) requiredStates (edges t)).map fun e => e.2.target := by
  rw [danglingTargetIssues, List.map_map]
  rfl

/-- The required states that are reported are those without a block. -/
theorem states_requiredStateIssues (t : Table) :
    (requiredStateIssues t).map (·.state) = requiredStates.filter fun s => !t.hasBlock s := by
  rw [requiredStateIssues, List.map_map]
  exact List.map_id _

/-- In a table with a proper index, the states with a block are the states of the table. -/
theorem hasBlock_iff {t : Table} (h : t.Indexed) {s : String} :
    t.hasBlock s = true ↔ s ∈ t.states := by
  rw [Table.hasBlock, h.block?_eq, List.find?_isSome]
  simp [Table.states]

theorem mem_requiredStates {s : String} :
    s ∈ requiredStates ↔ s = Names.failure ∨ s = Names.terminate := by
  simp [requiredStates]

/-- Neither required state is `finish`. -/
theorem ne_finish_of_required {s : String} (h : s = Names.failure ∨ s = Names.terminate) :
    s ≠ Names.finish := by
  rcases h with rfl | rfl <;> decide

/-- The missing blocks of a compiled table are reported exactly and once each, with a catalog or
without: for the states other than `finish` that have no block and are required or the target of
some transition. An issue about a target names the value and the line of the first transition that
leads to it. -/
theorem missing_blocks_exact {source : String} {t : Table} (hcompile : Table.compile source = .ok t)
    (c : Option Catalog) :
    let missing := (run t c).ofKind .missingBlock
    (missing.map (·.state)).Nodup ∧
    (∀ s, s ∈ missing.map (·.state) ↔ s ≠ Names.finish ∧ s ∉ t.states ∧
      (s = Names.failure ∨ s = Names.terminate ∨
        ∃ b ∈ t.blocks, ∃ e ∈ b.transitions, e.target = s)) ∧
    ∀ i ∈ missing, i.state ≠ Names.failure → i.state ≠ Names.terminate →
      ∃ e, (edges t).find? (fun e => e.2.target == i.state) = some e ∧
        i.value = some e.2.value ∧ i.line = some e.2.line := by
  intro missing
  have hindexed := (Table.wellFormed_of_compile hcompile).indexed
  have hmissing : missing = requiredStateIssues t ++ danglingTargetIssues t :=
    ofKind_missingBlock t c
  have hstates : missing.map (·.state) = (requiredStates.filter fun s => !t.hasBlock s) ++
      (firstEdges (fun s => !t.isKnown s) requiredStates (edges t)).map fun e => e.2.target := by
    rw [hmissing, List.map_append, states_requiredStateIssues, states_danglingTargetIssues]
  refine ⟨?_, fun s => ?_, fun i hi hfailure hterminate => ?_⟩
  · rw [hstates, List.nodup_append]
    refine ⟨List.Nodup.filter _ (by decide), nodup_firstEdges _ _ _, ?_⟩
    -- the search for targets starts with the required states as seen
    rintro s hs s' hs' rfl
    exact (mem_targets_firstEdges.1 hs').2.1 (List.mem_filter.1 hs).1
  · have hblock : (!t.hasBlock s) = true ↔ s ∉ t.states := by
      rw [← hasBlock_iff hindexed]; simp
    have hknown : (!t.isKnown s) = true ↔ s ≠ Names.finish ∧ s ∉ t.states := by
      rw [← hasBlock_iff hindexed]; simp [Table.isKnown]
    have htarget : (∃ e ∈ edges t, e.2.target = s) ↔
        ∃ b ∈ t.blocks, ∃ e ∈ b.transitions, e.target = s := by
      simp [mem_edges, and_assoc]
    rw [hstates, List.mem_append, List.mem_filter, mem_targets_firstEdges, hblock, hknown, htarget,
      mem_requiredStates]
    constructor
    · rintro (⟨hrequired, hblock⟩ | ⟨⟨hfinish, hblock⟩, -, htarget⟩)
      · exact ⟨ne_finish_of_required hrequired, hblock, hrequired.imp_right .inl⟩
      · exact ⟨hfinish, hblock, .inr (.inr htarget)⟩
    · rintro ⟨hfinish, hblock, hneeded⟩
      by_cases hrequired : s = Names.failure ∨ s = Names.terminate
      · exact .inl ⟨hrequired, hblock⟩
      · exact .inr ⟨⟨hfinish, hblock⟩, hrequired, (or_assoc.2 hneeded).resolve_left hrequired⟩
  · rw [hmissing, List.mem_append] at hi
    rcases hi with hi | hi
    · obtain ⟨s, hs, rfl⟩ := List.mem_map.1 hi
      rcases mem_requiredStates.1 (List.mem_filter.1 hs).1 with rfl | rfl
      · exact absurd rfl hfailure
      · exact absurd rfl hterminate
    · obtain ⟨e, he, rfl⟩ := List.mem_map.1 hi
      exact ⟨e, (mem_firstEdges.1 he).2.2, rfl, rfl⟩

/-- A table that lacks `terminate` and two targets, one of which two transitions lead to. -/
def danglingSource : String :=
  "a:m \x7b\n x b\n y c\n\x7d\nfailure \x7b\n z c\n\x7d\n"

/-- `danglingSource` compiled. -/
def danglingTable : Table where
  blocks :=
    [{ state := "a"
       method := "m"
       transitions :=
        [{ value := "x", target := "b", line := 2 }, { value := "y", target := "c", line := 3 }]
       line := 1 },
      { state := "failure"
        transitions := [{ value := "z", target := "c", line := 6 }]
        line := 5 }]
  index := .ofList [("a", 0), ("failure", 1)]
  sourceHash := Digest.sha256 danglingSource

theorem compile_danglingSource : Table.compile danglingSource = .ok danglingTable :=
  Table.compile_of_foldlM (u := { table := { danglingTable with sourceHash := "" } }) rfl rfl

/-- The blocks missing in `danglingTable`: `terminate`, and `b` and `c` at their first uses. -/
theorem missing_blocks_exact_danglingTable :
    Table.compile danglingSource = .ok danglingTable ∧
    let missing := (run danglingTable none).ofKind .missingBlock
    (missing.map fun i => (i.state, i.value, i.line)) =
      [("terminate", none, none), ("b", some "x", some 2), ("c", some "y", some 3)] ∧
    (missing.map (·.state)).Nodup ∧
    (∀ s, s ∈ missing.map (·.state) ↔ s ≠ Names.finish ∧ s ∉ danglingTable.states ∧
      (s = Names.failure ∨ s = Names.terminate ∨
        ∃ b ∈ danglingTable.blocks, ∃ e ∈ b.transitions, e.target = s)) ∧
    ∀ i ∈ missing, i.state ≠ Names.failure → i.state ≠ Names.terminate →
      ∃ e, (edges danglingTable).find? (fun e => e.2.target == i.state) = some e ∧
        i.value = some e.2.value ∧ i.line = some e.2.line :=
  ⟨compile_danglingSource, by decide, missing_blocks_exact compile_danglingSource none⟩

end Check
end TaskTable
