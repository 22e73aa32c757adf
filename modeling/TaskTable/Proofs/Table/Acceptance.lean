import TaskTable.Proofs.Table.WellFormed

/-!
# What is compiled

The compiler accepts exactly the tables of the language, and gives the blocks and variables that
their sections declare (`exists_isTable`, `compile_of_isTable`). What holds after each line is
`Unfinished.Holds`: the lines so far are described by sections and perhaps a block that is not yet
closed, and the table under construction has what these declare.
-/

namespace TaskTable
namespace Table

open Grammar (Line SpellsLine)

variable {u u' : Unfinished} {l : SourceLine}

/-! ## What holds after each line -/

/-- A table under construction has what sections, and a last block that is not closed, declare. -/
structure Unfinished.Holds (u : Unfinished) (ss : List Section) (last : Option BlockText) :
    Prop where
  indexed : u.table.Indexed
  blocks : u.table.blocks = blocksOf ss
  bindings : u.table.bindings = bindingsOf ss
  openBlock : u.openBlock = last.map BlockText.block
  wellMade : WellMade (textsOf ss ++ last.toList)

theorem holds_empty : Unfinished.Holds {} [] none where
  indexed := indexed_empty
  blocks := rfl
  bindings := rfl
  openBlock := rfl
  wellMade := ⟨List.nodup_nil, fun _ hb => absurd hb List.not_mem_nil⟩

variable {ss ss' : List Section} {last last' : Option BlockText}

/-- No block is open in the table if none is in the text. -/
theorem Unfinished.Holds.last_eq_none (h : u.Holds ss last) (hopen : u.openBlock = none) :
    last = none := by
  rwa [h.openBlock, Option.map_eq_none_iff] at hopen

/-- The block that is open in the table is the last one of the text. -/
theorem Unfinished.Holds.exists_text (h : u.Holds ss last) {b : Block}
    (hopen : u.openBlock = some b) : ∃ text, last = some text ∧ text.block = b := by
  rwa [h.openBlock, Option.map_eq_some_iff] at hopen

/-- A state is found among closed blocks if one of them declares it. -/
theorem Unfinished.Holds.block?_eq_none_iff (h : u.Holds ss last) {state : String} :
    u.table.block? state = none ↔ state ∉ (textsOf ss).map (·.state) := by
  rw [h.indexed.block?_eq, List.find?_eq_none, h.blocks, blocksOf]
  simp [BlockText.block]

theorem BlockText.transition?_eq_none_iff {b : BlockText} {value : String} :
    b.block.transition? value = none ↔ value ∉ b.declarations.map (·.value) := by
  unfold Block.transition? BlockText.block
  rw [List.find?_eq_none]
  simp [Declaration.transition]

theorem blocksOf_concat (ss : List Section) (s : Section) :
    blocksOf (ss ++ [s]) = blocksOf ss ++ (s.text?.map BlockText.block).toList := by
  unfold blocksOf
  rw [textsOf_concat, List.map_append]
  cases s <;> rfl

theorem bindingsOf_concat (ss : List Section) (s : Section) :
    bindingsOf (ss ++ [s]) =
      s.variable?.elim (bindingsOf ss) fun e => (bindingsOf ss).insert e.1 e.2 := by
  unfold bindingsOf SortedMap.ofList
  rw [List.filterMap_append, List.foldl_append]
  cases s <;> rfl

/-! ## One line after another -/

/-- A line that is accepted goes on with what stands before it. -/
theorem Unfinished.Holds.exists_follows {line : Line} (hu : u.Holds ss last)
    (hs : SpellsLine line l.text) (h : u.addLine l = .ok u') :
    ∃ ss' last', Follows (l.number, line) ss last ss' last' := by
  cases line with
  | blockClose =>
    obtain ⟨b, hopen, -⟩ := (addLine_blockClose_iff hs).1 h
    obtain ⟨text, rfl, -⟩ := hu.exists_text hopen
    exact ⟨_, _, .close ss text l.number⟩
  | blockOpen state method timer =>
    obtain ⟨hopen, -⟩ := (addLine_blockOpen_iff hs).1 h
    obtain rfl := hu.last_eq_none hopen
    exact ⟨_, _, .header ss l.number state method timer⟩
  | assignment name value =>
    obtain ⟨hopen, -⟩ := (addLine_assignment_iff hs).1 h
    obtain rfl := hu.last_eq_none hopen
    exact ⟨_, _, .assignment ss l.number name value⟩
  | transition value target settings =>
    obtain ⟨b, hopen, -⟩ := (addLine_transition_iff hs).1 h
    obtain ⟨text, rfl, -⟩ := hu.exists_text hopen
    exact ⟨_, _, .declaration ss text l.number value target settings⟩

/-- What holds before a line that is accepted holds after it. -/
theorem Unfinished.Holds.of_follows {line : Line} (hu : u.Holds ss last)
    (hs : SpellsLine line l.text) (hf : Follows (l.number, line) ss last ss' last')
    (h : u.addLine l = .ok u') : u'.Holds ss' last' := by
  obtain ⟨hindexed, hblocks, hbindings, hopen, hmade⟩ := id hu
  cases hf with
  | assignment =>
    obtain ⟨hnone, rfl⟩ := (addLine_assignment_iff hs).1 h
    refine ⟨⟨hindexed.size, hindexed.get⟩, ?_, ?_, hnone, ?_⟩
    · rw [blocksOf_concat, ← hblocks]
      exact (List.append_nil _).symm
    · rw [bindingsOf_concat]
      exact congrArg (SortedMap.insert · _ _) hbindings
    · rw [textsOf_concat]
      simpa [Section.text?] using hmade
  | header ss n state method timer =>
    obtain ⟨hnone, hfresh, rfl⟩ := (addLine_blockOpen_iff hs).1 h
    refine ⟨hindexed, hblocks, hbindings, rfl, ?_⟩
    rw [Option.toList_none, List.append_nil] at hmade
    have hblock : BlockText.WellMade ⟨l.number, state, method, timer, []⟩ :=
      ⟨List.nodup_nil, fun _ hd => absurd hd List.not_mem_nil⟩
    exact wellMade_concat_iff.2 ⟨hmade, hu.block?_eq_none_iff.1 hfresh, hblock⟩
  | declaration ss text n value target settings =>
    obtain ⟨b, hb, hsettings, hfresh, rfl⟩ := (addLine_transition_iff hs).1 h
    obtain rfl : text.block = b := by
      rw [hopen] at hb
      exact Option.some.inj hb
    refine ⟨hindexed, hblocks, hbindings, ?_, ?_⟩
    · simp [BlockText.block]
    · obtain ⟨htexts, hstate, htext⟩ := wellMade_concat_iff.1 hmade
      have hvalue := BlockText.transition?_eq_none_iff.1 hfresh
      exact wellMade_concat_iff.2
        ⟨htexts, hstate, BlockText.wellMade_concat_iff.2 ⟨htext, hvalue, hsettings⟩⟩
  | close ss text n =>
    obtain ⟨b, hb, t, hadd, rfl⟩ := (addLine_blockClose_iff hs).1 h
    obtain rfl : text.block = b := by
      rw [hopen] at hb
      exact Option.some.inj hb
    obtain ⟨hindexed', hadded, -⟩ := hindexed.addBlock hadd
    refine ⟨hindexed', ?_, ?_, rfl, ?_⟩
    · rw [blocksOf_concat, ← hblocks]
      exact hadded
    · rw [bindingsOf_concat]
      exact (bindings_of_addBlock hadd).trans hbindings
    · rw [textsOf_concat, Option.toList_none, List.append_nil]
      exact hmade

/-- The open block can always be closed: no closed one is for its state. -/
theorem Unfinished.Holds.exists_addBlock (hu : u.Holds ss last) {b : Block}
    (hb : u.openBlock = some b) : ∃ t, u.table.addBlock b = .ok t := by
  obtain ⟨text, rfl, rfl⟩ := hu.exists_text hb
  obtain ⟨-, hfresh, -⟩ := wellMade_concat_iff.1 hu.wellMade
  apply hu.indexed.exists_addBlock
  unfold states
  rw [hu.blocks, blocksOf, List.map_map]
  exact hfresh

/-- A line that goes on with what stands before it, and keeps it well made, is accepted. -/
theorem Unfinished.Holds.exists_addLine {line : Line} (hu : u.Holds ss last)
    (hs : SpellsLine line l.text) (hf : Follows (l.number, line) ss last ss' last')
    (hmade : WellMade (textsOf ss' ++ last'.toList)) : ∃ u', u.addLine l = .ok u' := by
  have hopen := hu.openBlock
  cases hf with
  | assignment => exact ⟨_, (addLine_assignment_iff hs).2 ⟨hopen, rfl⟩⟩
  | header ss n state method timer =>
    obtain ⟨-, hfresh, -⟩ := wellMade_concat_iff.1 hmade
    exact ⟨_, (addLine_blockOpen_iff hs).2 ⟨hopen, hu.block?_eq_none_iff.2 hfresh, rfl⟩⟩
  | declaration ss text n value target settings =>
    obtain ⟨-, -, htext⟩ := wellMade_concat_iff.1 hmade
    obtain ⟨-, hfresh, hsettings⟩ := BlockText.wellMade_concat_iff.1 htext
    exact ⟨_, (addLine_transition_iff hs).2
      ⟨text.block, hopen, hsettings, BlockText.transition?_eq_none_iff.2 hfresh, rfl⟩⟩
  | close ss text n =>
    obtain ⟨t, hadd⟩ := hu.exists_addBlock hopen
    exact ⟨_, (addLine_blockClose_iff hs).2 ⟨text.block, hopen, t, hadd, rfl⟩⟩

/-! ## Whole texts -/

/-- The table under construction after some lines. -/
def readLines (lines : List SourceLine) : Except SourceError Unfinished :=
  lines.foldlM Unfinished.addLine {}

theorem readLines_concat (lines : List SourceLine) (l : SourceLine) :
    readLines (lines ++ [l]) = (readLines lines).bind fun u => u.addLine l := by
  unfold readLines
  rw [List.foldlM_append]
  show Except.bind _ _ = _
  congr 1
  funext u
  rw [List.foldlM_cons]
  simp

/-- Lines that are accepted are described by what the table under construction has. -/
theorem exists_describes {lines : List SourceLine} (h : readLines lines = .ok u) :
    ∃ ss last, Describes lines ss last ∧ u.Holds ss last := by
  induction lines using List.reverseRecOn generalizing u with
  | nil =>
    cases h
    exact ⟨[], none, describes_nil_iff.2 ⟨rfl, rfl⟩, holds_empty⟩
  | append_singleton lines l ih =>
    rw [readLines_concat] at h
    cases hread : readLines lines with
    | error e => rw [hread] at h; cases h
    | ok u₁ =>
      rw [hread] at h
      obtain ⟨ss, last, hdescribes, hu₁⟩ := ih hread
      obtain ⟨line, hs⟩ := exists_spells_of_addLine h
      obtain ⟨ss', last', hf⟩ := hu₁.exists_follows hs h
      exact ⟨ss', last', describes_concat_iff.2 ⟨ss, last, line, hdescribes, hs, hf⟩,
        hu₁.of_follows hs hf h⟩

/-- Lines that are described, by sections that are well made, are accepted. -/
theorem readLines_of_describes {lines : List SourceLine} (h : Describes lines ss last)
    (hmade : WellMade (textsOf ss ++ last.toList)) :
    ∃ u, readLines lines = .ok u ∧ u.Holds ss last := by
  induction lines using List.reverseRecOn generalizing ss last with
  | nil =>
    obtain ⟨rfl, rfl⟩ := describes_nil_iff.1 h
    exact ⟨{}, rfl, holds_empty⟩
  | append_singleton lines l ih =>
    obtain ⟨ss₁, last₁, line, hlines, hs, hf⟩ := describes_concat_iff.1 h
    obtain ⟨u₁, hread, hu₁⟩ := ih hlines (hmade.of_follows hf)
    obtain ⟨u, hadd⟩ := hu₁.exists_addLine hs hf hmade
    refine ⟨u, ?_, hu₁.of_follows hs hf hadd⟩
    rw [readLines_concat, hread]
    exact hadd

theorem compile_eq (source : String) :
    compile source = (readLines (sourceLines source.toList)).bind fun u =>
      u.close.map fun t => { t with sourceHash := Digest.sha256 source } :=
  rfl

/-- A text is compiled if all its lines are accepted and no block is left open. -/
theorem compile_ok_iff {source : String} {t : Table} :
    compile source = .ok t ↔ ∃ u, readLines (sourceLines source.toList) = .ok u ∧
      u.openBlock = none ∧ t = { u.table with sourceHash := Digest.sha256 source } := by
  rw [compile_eq]
  cases readLines (sourceLines source.toList) with
  | error e => simp [Except.bind]
  | ok u =>
    unfold Unfinished.close
    dsimp only [Except.bind]
    cases hopen : u.openBlock with
    | some b => simp [Except.map, hopen]
    | none => simp [Except.map, hopen, eq_comm]

/-- Otherwise a line is not accepted, or a block is left open. -/
theorem compile_error_iff {source : String} {e : SourceError} :
    compile source = .error e ↔ readLines (sourceLines source.toList) = .error e ∨
      ∃ u b, readLines (sourceLines source.toList) = .ok u ∧ u.openBlock = some b ∧
        e = .unterminated b.line b.state := by
  rw [compile_eq]
  cases readLines (sourceLines source.toList) with
  | error e' => simp [Except.bind]
  | ok u =>
    unfold Unfinished.close
    dsimp only [Except.bind]
    cases hopen : u.openBlock with
    | none => simp [Except.map, hopen]
    | some b => simp [Except.map, hopen, eq_comm]

/-- A table of the language is compiled to what its sections declare. -/
theorem compile_of_isTable {source : String} (h : IsTable source ss) :
    ∃ t, compile source = .ok t ∧ t.blocks = blocksOf ss ∧ t.bindings = bindingsOf ss := by
  have hmade : WellMade (textsOf ss ++ (none : Option BlockText).toList) := by
    rw [Option.toList_none, List.append_nil]
    exact h.wellMade
  obtain ⟨u, hread, hu⟩ := readLines_of_describes h.describes hmade
  exact ⟨_, compile_ok_iff.2 ⟨u, hread, hu.openBlock, rfl⟩, hu.blocks, hu.bindings⟩

/-- Whatever is compiled is a table of the language. -/
theorem exists_isTable {source : String} {t : Table} (h : compile source = .ok t) :
    ∃ ss, IsTable source ss := by
  obtain ⟨u, hread, hopen, -⟩ := compile_ok_iff.1 h
  obtain ⟨ss, last, hdescribes, hu⟩ := exists_describes hread
  obtain rfl := hu.last_eq_none hopen
  have hmade := hu.wellMade
  rw [Option.toList_none, List.append_nil] at hmade
  exact ⟨ss, hdescribes, hmade⟩

end Table

end TaskTable
