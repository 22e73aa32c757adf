import TaskTable.Proofs.Recording.Scripts
import TaskTable.Proofs.Table.Layout

/-!
# What a compiled table is

A compiled table is well formed in all that is built on it: distinct states and values, names where
names belong, lines in the order of the declarations, values that a script can hold, and an index
that finds what a search finds.
-/

namespace TaskTable
namespace Table

open Grammar (IsName Quotable)
open Script (entryText groupText readEntries readGroups)

/-- The values that are written in a table: those of its transitions and of its variables. -/
def writtenValues (t : Table) : List String :=
  t.blocks.flatMap Block.values ++ t.bindings.entries.map (·.2)

variable {source : String} {ss : List Section} {t : Table}

/-! ## Values -/

/-- No line that counts holds a line feed. -/
theorem feed_not_mem_text {source : List Char} {l : SourceLine} (hl : l ∈ sourceLines source) :
    '\n' ∉ l.text := by
  obtain ⟨⟨raw, i⟩, hraw, heq⟩ := List.mem_filterMap.1 hl
  have hline : '\n' ∉ raw := Text.not_mem_of_mem_lines (List.fst_mem_of_mem_zipIdx hraw)
  have htext : l.text = Text.content raw := by
    dsimp only at heq
    split at heq <;> cases heq
    rfl
  obtain ⟨remark, -, hremark⟩ := Text.exists_stripCommentFrom_append none raw
  rw [htext]
  intro hmem
  have hstripped : '\n' ∈ Text.stripComment raw := (Text.trim_sublist _).subset hmem
  exact hline (hremark ▸ List.mem_append_left remark hstripped)

/-- Every form of a table stands on a line. -/
theorem IsTable.exists_line (h : IsTable source ss) {f : Nat × Grammar.Line}
    (hf : f ∈ formsOf ss none) : ∃ l ∈ sourceLines source.toList, Tells l f := by
  obtain ⟨i, hi, rfl⟩ := List.getElem_of_mem hf
  have hi' : i < (sourceLines source.toList).length := h.describes.length_eq ▸ hi
  exact ⟨_, List.getElem_mem hi', h.describes.get hi' hi⟩

/-- A value that stands in a table can be quoted. -/
theorem IsTable.quotable (h : IsTable source ss) {f : Nat × Grammar.Line}
    (hf : f ∈ formsOf ss none) {v : String} (hv : f.2.value? = some v) : Quotable v := by
  obtain ⟨l, hl, -, hspells⟩ := h.exists_line hf
  exact hspells.quotable (feed_not_mem_text hl) hv

/-- The lines of a section are among those of the table. -/
theorem mem_formsOf {s : Section} (hs : s ∈ ss) {f : Nat × Grammar.Line} (hf : f ∈ s.lines) :
    f ∈ formsOf ss none :=
  List.mem_append_left _ (List.mem_flatMap.2 ⟨s, hs, hf⟩)

/-- Every transition of a table is declared on a line. -/
theorem exists_form_of_mem {b : Block} (hb : b ∈ blocksOf ss) {tr : Transition}
    (htr : tr ∈ b.transitions) :
    ∃ d : Declaration, d.transition = tr ∧
      (d.line, Grammar.Line.transition d.value d.target d.settings) ∈ formsOf ss none := by
  obtain ⟨text, htext, rfl⟩ := List.mem_map.1 hb
  obtain ⟨s, hs, hsome⟩ := List.mem_filterMap.1 htext
  obtain ⟨d, hd, rfl⟩ := List.mem_map.1 htr
  cases s with
  | assignment n name value => cases hsome
  | block text closing =>
    cases hsome
    have hline : (d.line, Grammar.Line.transition d.value d.target d.settings) ∈
        (Section.block text closing).lines :=
      List.mem_append_left _ (List.mem_cons_of_mem _ (List.mem_map.2 ⟨d, hd, rfl⟩))
    exact ⟨d, rfl, mem_formsOf hs hline⟩

theorem IsTable.quotable_of_mem_blocks (h : IsTable source ss) {b : Block} (hb : b ∈ blocksOf ss)
    {v : String} (hv : v ∈ b.values) : Quotable v := by
  obtain ⟨tr, htr, rfl⟩ := List.mem_map.1 hv
  obtain ⟨d, rfl, hform⟩ := exists_form_of_mem hb htr
  exact h.quotable hform rfl

theorem IsTable.quotable_of_mem_bindings (h : IsTable source ss) {e : String × String}
    (he : e ∈ (bindingsOf ss).entries) : Quotable e.2 := by
  obtain ⟨s, hs, hsome⟩ := List.mem_filterMap.1 (SortedMap.mem_of_mem_ofList he)
  cases s with
  | assignment n name value =>
    cases hsome
    exact h.quotable (mem_formsOf hs List.mem_cons_self) rfl
  | block text closing => cases hsome

/-- Every value of a compiled table can be quoted. -/
theorem quotable_of_compile (h : compile source = .ok t) {v : String} (hv : v ∈ t.writtenValues) :
    Quotable v := by
  obtain ⟨ss, htable⟩ := exists_isTable h
  obtain ⟨t', ht', hblocks, hbindings⟩ := compile_of_isTable htable
  rw [h] at ht'
  cases ht'
  rcases List.mem_append.1 hv with hv | hv
  · obtain ⟨b, hb, hv⟩ := List.mem_flatMap.1 hv
    rw [hblocks] at hb
    exact htable.quotable_of_mem_blocks hb hv
  · obtain ⟨e, he, rfl⟩ := List.mem_map.1 hv
    rw [hbindings] at he
    exact htable.quotable_of_mem_bindings he

/-! ## Lines -/

/-- A transition is below its header. -/
theorem WellFormed.header_lt (h : t.WellFormed) {b : Block} (hb : b ∈ t.blocks) {tr : Transition}
    (htr : tr ∈ b.transitions) : b.line < tr.line := by
  have hlines : b.lines.Pairwise (· < ·) := (List.pairwise_flatMap.1 h.lines).1 b hb
  exact (List.pairwise_cons.1 hlines).1 _ (List.mem_map_of_mem htr)

/-- A block is above the header of every later one. -/
theorem WellFormed.lt_header (h : t.WellFormed) {i j : Nat} {b b' : Block} (hij : i < j)
    (hb : t.blocks[i]? = some b) (hb' : t.blocks[j]? = some b') {n : Nat} (hn : n ∈ b.lines) :
    n < b'.line := by
  obtain ⟨hi, rfl⟩ := List.getElem?_eq_some_iff.1 hb
  obtain ⟨hj, rfl⟩ := List.getElem?_eq_some_iff.1 hb'
  have hblocks := (List.pairwise_flatMap.1 h.lines).2
  exact List.pairwise_iff_getElem.1 hblocks i j hi hj hij n hn _ List.mem_cons_self

/-! ## Whole tables -/

/-- Every table that is compiled has distinct states, distinct values in each block, names where
names belong and lines in the order of the declarations, each transition between its header and the
next. Its values can be quoted: scripts made of them are read back. Blocks are found where a search
finds them. -/
theorem compiled_sound (h : compile source = .ok t) :
    t.states.Nodup ∧
      (∀ b ∈ t.blocks, b.values.Nodup) ∧
      (∀ b ∈ t.blocks, IsName b.state ∧ IsName b.method ∧ IsName b.timer ∧
        ∀ tr ∈ b.transitions, IsName tr.target) ∧
      (t.blocks.flatMap Block.lines).Pairwise (· < ·) ∧
      (∀ n ∈ t.blocks.flatMap Block.lines, 1 ≤ n) ∧
      (∀ (i : Nat) (b : Block), t.blocks[i]? = some b → ∀ tr ∈ b.transitions, b.line < tr.line ∧
        ∀ (j : Nat) (b' : Block), i < j → t.blocks[j]? = some b' → tr.line < b'.line) ∧
      (∀ v ∈ t.writtenValues, Quotable v) ∧
      (∀ gs : List (String × List String),
        (∀ g ∈ gs, IsName g.1 ∧ g.2 ≠ [] ∧ ∀ v ∈ g.2, v ∈ t.writtenValues) →
          readGroups (String.join (gs.map groupText)) = .ok gs) ∧
      (∀ es : List (String × String), (∀ e ∈ es, IsName e.1 ∧ e.2 ∈ t.writtenValues) →
        readEntries (String.join (es.map entryText)) = .ok es) ∧
      ∀ s, t.block? s = t.blocks.find? fun b => b.state == s := by
  have hformed := wellFormed_of_compile h
  have hquotable : ∀ v ∈ t.writtenValues, Quotable v := fun v hv => quotable_of_compile h hv
  refine ⟨hformed.states, fun b hb => (hformed.blocks b hb).values, fun b hb => ?_,
    hformed.lines, hformed.positive, fun i b hb tr htr => ⟨?_, fun j b' hij hb' => ?_⟩, hquotable,
    fun gs hgs => ?_, fun es hes => ?_, hformed.indexed.block?_eq⟩
  · have hblock := hformed.blocks b hb
    exact ⟨hblock.state, hblock.method, hblock.timer, hblock.targets⟩
  · exact hformed.header_lt (List.mem_of_getElem? hb) htr
  · exact hformed.lt_header hij hb hb' (List.mem_cons_of_mem _ (List.mem_map_of_mem htr))
  · refine Script.readGroups_of_writable fun g hg => ?_
    obtain ⟨hname, hne, hvalues⟩ := hgs g hg
    exact ⟨hname, hne, fun v hv => hquotable v (hvalues v hv)⟩
  · refine Script.readEntries_of_writable fun e he => ?_
    obtain ⟨hname, hvalue⟩ := hes e he
    exact ⟨hname, hquotable _ hvalue⟩

/-- A value that holds a hash and a quote is read back from both scripts. -/
theorem compiled_sound_sharpSource :
    sharpTable.states.Nodup ∧
      readGroups (groupText ("go", ["#\""])) = .ok [("go", ["#\""])] ∧
      readEntries (entryText ("go", "#\"")) = .ok [("go", "#\"")] := by
  obtain ⟨hstates, -, -, -, -, -, -, hgroups, hentries, -⟩ := compiled_sound compile_sharpSource
  have hvalue : "#\"" ∈ sharpTable.writtenValues := by decide
  have hname : IsName "go" := by decide +kernel
  refine ⟨hstates, ?_, ?_⟩
  · have hread := hgroups [("go", ["#\""])] (by simpa using ⟨hname, hvalue⟩)
    simpa using hread
  · have hread := hentries [("go", "#\"")] (by simpa using ⟨hname, hvalue⟩)
    simpa using hread

end Table
end TaskTable
