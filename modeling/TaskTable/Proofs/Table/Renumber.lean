import TaskTable.Proofs.Table.Acceptance

/-!
# Renumbered tables

The numbers of lines are carried through compilation and decide nothing in it: lines with the same
texts and other numbers are compiled to the same table with these other numbers
(`compile_of_renumbered`).
-/

namespace TaskTable

/-! ## Tables with other line numbers -/

/-- A transition on another line. -/
def Transition.renumber (f : Nat → Nat) (t : Transition) : Transition :=
  { t with line := f t.line }

/-- A block whose header and transitions are on other lines. -/
def Block.renumber (f : Nat → Nat) (b : Block) : Block :=
  { b with transitions := b.transitions.map (Transition.renumber f), line := f b.line }

/-- A table whose blocks are on other lines. -/
def Table.renumber (f : Nat → Nat) (t : Table) : Table :=
  { t with blocks := t.blocks.map (Block.renumber f) }

variable {f : Nat → Nat}

theorem Transition.renumber_eq_self {t : Transition} (h : f t.line = t.line) :
    t.renumber f = t := by
  unfold Transition.renumber
  rw [h]

theorem Block.renumber_eq_self {b : Block} (h : ∀ n, f n = n) : b.renumber f = b := by
  unfold Block.renumber
  rw [h b.line]
  have htransitions : b.transitions.map (Transition.renumber f) = b.transitions :=
    List.map_id'' (fun t => Transition.renumber_eq_self (h t.line)) b.transitions
  rw [htransitions]

/-- A table keeps its numbers if none is changed. -/
theorem Table.renumber_eq_self {t : Table} (h : ∀ n, f n = n) : t.renumber f = t := by
  unfold Table.renumber
  rw [List.map_id'' fun b => Block.renumber_eq_self h]

/-! ## Looking up -/

theorem Block.transition?_renumber (b : Block) (value : String) :
    (b.renumber f).transition? value = (b.transition? value).map (Transition.renumber f) := by
  unfold Block.transition? Block.renumber
  rw [List.find?_map]
  rfl

namespace Table

theorem isIndexed_renumber (t : Table) : (t.renumber f).isIndexed = t.isIndexed := by
  unfold isIndexed renumber
  rw [List.length_map]

theorem block?_renumber (t : Table) (state : String) :
    (t.renumber f).block? state = (t.block? state).map (Block.renumber f) := by
  have hindex : (t.renumber f).index = t.index := rfl
  have hblocks : (t.renumber f).blocks = t.blocks.map (Block.renumber f) := rfl
  unfold block?
  rw [isIndexed_renumber, hindex, hblocks]
  cases t.index.get? state with
  | some i => exact List.getElem?_map
  | none =>
    dsimp only
    rw [List.find?_map]
    split <;> rfl

theorem reindex_renumber (t : Table) : (t.renumber f).reindex = t.reindex.renumber f := by
  unfold reindex renumber indexOf
  rw [List.zipIdx_map, List.map_map]
  rfl

/-- A block is added in the same way whatever lines it and the others are on. -/
theorem addBlock_renumber {t t' : Table} {b : Block} (h : t.addBlock b = .ok t') :
    (t.renumber f).addBlock (b.renumber f) = .ok (t'.renumber f) := by
  have hindexed : (if (t.renumber f).isIndexed then t.renumber f else (t.renumber f).reindex) =
      (if t.isIndexed then t else t.reindex).renumber f := by
    rw [isIndexed_renumber, reindex_renumber]
    split <;> rfl
  unfold addBlock at h ⊢
  rw [hindexed]
  generalize (if t.isIndexed then t else t.reindex) = t₁ at h ⊢
  have hindex : (t₁.renumber f).index = t₁.index := rfl
  have hstate : (b.renumber f).state = b.state := rfl
  dsimp only at h ⊢
  rw [hindex, hstate]
  cases hget : t₁.index.get? b.state with
  | some i => rw [hget] at h; cases h
  | none =>
    rw [hget] at h
    cases h
    simp [renumber]

/-! ## Line by line -/

/-- A table under construction whose blocks are on other lines. -/
def Unfinished.renumber (f : Nat → Nat) (u : Unfinished) : Unfinished where
  table := u.table.renumber f
  openBlock := u.openBlock.map (Block.renumber f)

/-- A line that is accepted is also accepted under another number, with the same effect. -/
theorem addLine_renumber {u v : Unfinished} {l l' : SourceLine} (htext : l'.text = l.text)
    (hnumber : l'.number = f l.number) (h : u.addLine l = .ok v) :
    (u.renumber f).addLine l' = .ok (v.renumber f) := by
  obtain ⟨line, hs⟩ := exists_spells_of_addLine h
  have hs' := hs
  rw [← htext] at hs'
  cases line with
  | blockClose =>
    obtain ⟨b, hopen, t, hadd, rfl⟩ := (addLine_blockClose_iff hs).1 h
    refine (addLine_blockClose_iff hs').2 ⟨b.renumber f, ?_, _, addBlock_renumber hadd, rfl⟩
    exact congrArg (Option.map (Block.renumber f)) hopen
  | blockOpen state method timer =>
    obtain ⟨hopen, hfresh, rfl⟩ := (addLine_blockOpen_iff hs).1 h
    refine (addLine_blockOpen_iff hs').2 ⟨?_, ?_, ?_⟩
    · exact congrArg (Option.map (Block.renumber f)) hopen
    · show (u.table.renumber f).block? state = none
      rw [block?_renumber, hfresh]
      rfl
    · rw [hnumber]
      rfl
  | assignment name value =>
    obtain ⟨hopen, rfl⟩ := (addLine_assignment_iff hs).1 h
    exact (addLine_assignment_iff hs').2 ⟨congrArg (Option.map (Block.renumber f)) hopen, rfl⟩
  | transition value target settings =>
    obtain ⟨b, hopen, hrange, hfresh, rfl⟩ := (addLine_transition_iff hs).1 h
    refine (addLine_transition_iff hs').2 ⟨b.renumber f, ?_, hrange, ?_, ?_⟩
    · exact congrArg (Option.map (Block.renumber f)) hopen
    · rw [Block.transition?_renumber, hfresh]
      rfl
    · rw [hnumber]
      simp [Unfinished.renumber, Block.renumber, Transition.renumber, Declaration.transition]

/-- Lines that are accepted are also accepted under other numbers. -/
theorem foldlM_addLine_renumber {lines lines' : List SourceLine} {u v : Unfinished}
    (hlines : lines'.map (fun l => (l.number, l.text)) =
      lines.map fun l => (f l.number, l.text))
    (h : lines.foldlM Unfinished.addLine u = .ok v) :
    lines'.foldlM Unfinished.addLine (u.renumber f) = .ok (v.renumber f) := by
  induction lines generalizing lines' u with
  | nil =>
    rw [List.map_nil, List.map_eq_nil_iff] at hlines
    cases h
    rw [hlines]
    rfl
  | cons l ls ih =>
    obtain ⟨l', ls', rfl, hl, hls⟩ := List.map_eq_cons_iff.1 hlines
    obtain ⟨hnumber, htext⟩ := Prod.ext_iff.1 hl
    rw [List.foldlM_cons] at h ⊢
    cases hadd : u.addLine l with
    | error e => rw [hadd] at h; cases h
    | ok u₁ =>
      rw [hadd] at h
      rw [addLine_renumber htext hnumber hadd]
      exact ih hls h

/-! ## Whole tables -/

/-- A text whose lines say the same under other numbers describes the same table with these other
numbers. -/
theorem compile_of_renumbered {source source' : String} {t : Table}
    (hlines : (sourceLines source'.toList).map (fun l => (l.number, l.text)) =
      (sourceLines source.toList).map fun l => (f l.number, l.text))
    (h : compile source = .ok t) :
    compile source' = .ok { t.renumber f with sourceHash := Digest.sha256 source' } := by
  obtain ⟨u, hread, hopen, rfl⟩ := compile_ok_iff.1 h
  have hread' := foldlM_addLine_renumber hlines hread
  refine compile_ok_iff.2 ⟨u.renumber f, hread', ?_, rfl⟩
  exact congrArg (Option.map (Block.renumber f)) hopen

end Table

end TaskTable
