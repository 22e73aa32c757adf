import Mathlib.Data.List.Nodup
import Mathlib.Data.List.Pairwise
import TaskTable.Proofs.Table.OneLine

/-!
# Compiled tables are well formed

What every compiled table has: blocks for distinct states, distinct values in each block, names
where names belong, and a line of its own for each header and transition, in order. The proof
follows the compiler line by line; `Unfinished.Sound` is what holds after each.
-/

namespace TaskTable

open Grammar (IsName)

/-! ## Distinct keys -/

/-- An entry is the first one with its key if no two share a key. -/
theorem find?_of_nodup {α : Type} {key : α → String} {l : List α} (h : (l.map key).Nodup) {a : α}
    (ha : a ∈ l) : (l.find? fun x => key x == key a) = some a := by
  have hinj := List.inj_on_of_nodup_map h
  cases hfind : l.find? fun x => key x == key a with
  | none => simpa using List.find?_eq_none.1 hfind a ha
  | some x =>
    have hkey : key x = key a := by simpa using List.find?_some hfind
    rw [hinj (List.mem_of_find?_eq_some hfind) ha hkey]

/-! ## Well-formed tables -/

/-- The lines of a block's header and transitions, in the order of their declaration. -/
def Block.lines (b : Block) : List Nat :=
  b.line :: b.transitions.map (·.line)

/-- A block with names where names belong and each value once. -/
structure Block.WellFormed (b : Block) : Prop where
  state : IsName b.state
  method : IsName b.method
  timer : IsName b.timer
  targets : ∀ t ∈ b.transitions, IsName t.target
  values : b.values.Nodup

/-- A block stays well formed with one more transition, for a value that had none. -/
theorem Block.WellFormed.declare {b : Block} {t : Transition} (h : b.WellFormed)
    (htarget : IsName t.target) (hfresh : b.transition? t.value = none) :
    Block.WellFormed { b with transitions := b.transitions ++ [t] } := by
  refine ⟨h.state, h.method, h.timer, fun tr htr => ?_, ?_⟩
  · rcases List.mem_append.1 htr with htr | htr
    · exact h.targets tr htr
    · rw [List.mem_singleton.1 htr]
      exact htarget
  · show (b.transitions ++ [t] |>.map (·.value)).Nodup
    rw [List.map_append, List.map_singleton]
    refine List.nodup_append.2 ⟨h.values, List.nodup_singleton _, fun v hv w hw => ?_⟩
    obtain ⟨tr, htr, rfl⟩ := List.mem_map.1 hv
    rw [List.mem_singleton.1 hw]
    simpa using List.find?_eq_none.1 hfresh tr htr

/-- The index of a table finds the first block of each state. -/
structure Table.Indexed (t : Table) : Prop where
  size : t.index.size = t.blocks.length
  get : ∀ s, t.index.get? s = t.blocks.findIdx? fun b => b.state == s

/-- A table as it is compiled. -/
structure Table.WellFormed (t : Table) : Prop where
  indexed : t.Indexed
  states : t.states.Nodup
  blocks : ∀ b ∈ t.blocks, b.WellFormed
  lines : (t.blocks.flatMap Block.lines).Pairwise (· < ·)
  positive : ∀ n ∈ t.blocks.flatMap Block.lines, 0 < n

namespace Table

/-! ## Looking up blocks -/

/-- A table with a proper index is looked up as its list of blocks is searched. -/
theorem Indexed.block?_eq {t : Table} (h : t.Indexed) (s : String) :
    t.block? s = t.blocks.find? fun b => b.state == s := by
  have hindexed : t.isIndexed = true := by simp [isIndexed, h.size]
  rw [block?, h.get, List.find?_eq_bind_findIdx?_getElem?]
  cases t.blocks.findIdx? fun b => b.state == s with
  | none => simp [hindexed]
  | some i => rfl

theorem indexed_empty : ({} : Table).Indexed :=
  ⟨rfl, fun _ => rfl⟩

/-- A block that is added comes last, under a state that had none. -/
theorem Indexed.addBlock {t t' : Table} {b : Block} (h : t.Indexed) (hadd : t.addBlock b = .ok t') :
    t'.Indexed ∧ t'.blocks = t.blocks ++ [b] ∧ b.state ∉ t.states := by
  have hindexed : t.isIndexed = true := by simp [isIndexed, h.size]
  simp only [Table.addBlock, hindexed, if_true] at hadd
  split at hadd
  · cases hadd
  · next hget =>
    cases hadd
    have hnone : t.blocks.findIdx? (fun b' => b'.state == b.state) = none := by rw [← h.get, hget]
    refine ⟨⟨?_, fun s => ?_⟩, rfl, ?_⟩
    · rw [SortedMap.size_insert hget, h.size, List.length_append, List.length_singleton]
    · rw [SortedMap.get?_insert, List.findIdx?_append, h.get]
      by_cases hs : s = b.state
      · subst hs
        simp [hnone]
      · have hs' : (b.state == s) = false := by simpa using fun e => hs e.symm
        simp [hs, hs']
    · rw [List.findIdx?_eq_none_iff] at hnone
      intro hmem
      obtain ⟨b', hb', he⟩ := List.mem_map.1 hmem
      simpa [he] using hnone b' hb'

/-- A block for a state that has none can be added. -/
theorem Indexed.exists_addBlock {t : Table} {b : Block} (h : t.Indexed)
    (hfresh : b.state ∉ t.states) : ∃ t', t.addBlock b = .ok t' := by
  have hindexed : t.isIndexed = true := by simp [isIndexed, h.size]
  have hget : t.index.get? b.state = none := by
    rw [h.get, List.findIdx?_eq_none_iff]
    intro b' hb'
    have hne : b'.state ≠ b.state := fun heq => hfresh (heq ▸ List.mem_map_of_mem hb')
    simpa using hne
  unfold Table.addBlock
  rw [if_pos hindexed]
  dsimp only
  rw [hget]
  exact ⟨_, rfl⟩

/-- A block that is added changes no variable. -/
theorem bindings_of_addBlock {t t' : Table} {b : Block} (h : t.addBlock b = .ok t') :
    t'.bindings = t.bindings := by
  unfold Table.addBlock at h
  dsimp only at h
  split at h
  · cases h
  · cases h
    split <;> rfl

namespace WellFormed

variable {t : Table}

/-- The block that is found for a state is one of the table's, and the state's. -/
theorem mem_of_block? (h : t.WellFormed) {s : String} {b : Block} (hb : t.block? s = some b) :
    b ∈ t.blocks ∧ b.state = s := by
  rw [h.indexed.block?_eq] at hb
  exact ⟨List.mem_of_find?_eq_some hb, by simpa using List.find?_some hb⟩

/-- Every block is found under its state. -/
theorem block?_of_mem (h : t.WellFormed) {b : Block} (hb : b ∈ t.blocks) :
    t.block? b.state = some b := by
  rw [h.indexed.block?_eq]
  exact find?_of_nodup h.states hb

/-- A line declares one transition only. -/
theorem transition_eq_of_line (h : t.WellFormed) {b b' : Block} {tr tr' : Transition}
    (hb : b ∈ t.blocks) (hb' : b' ∈ t.blocks) (htr : tr ∈ b.transitions)
    (htr' : tr' ∈ b'.transitions) (hline : tr.line = tr'.line) : b = b' ∧ tr = tr' := by
  have hlines : (t.blocks.flatMap Block.lines).Nodup := h.lines.imp Nat.ne_of_lt
  rw [List.nodup_flatMap] at hlines
  have hmem : tr.line ∈ b.lines := List.mem_cons_of_mem _ (List.mem_map_of_mem htr)
  have hmem' : tr.line ∈ b'.lines := hline ▸ List.mem_cons_of_mem _ (List.mem_map_of_mem htr')
  have hsymm : Std.Symm (Function.onFun List.Disjoint Block.lines) :=
    ⟨fun _ _ hd => List.disjoint_symm hd⟩
  -- two blocks have no line in common
  have heq : b = b' := by
    by_contra hne
    exact (hlines.2.forall hb hb' hne) hmem hmem'
  subst heq
  have hnodup := (List.nodup_cons.1 (hlines.1 b hb)).2
  exact ⟨rfl, List.inj_on_of_nodup_map hnodup htr htr' hline⟩

/-- A declared transition is not one of the implicit routes. -/
theorem line_pos (h : t.WellFormed) {b : Block} {tr : Transition} (hb : b ∈ t.blocks)
    (htr : tr ∈ b.transitions) : 0 < tr.line :=
  h.positive _ <| List.mem_flatMap.2 ⟨b, hb, List.mem_cons_of_mem _ (List.mem_map_of_mem htr)⟩

end WellFormed

/-! ## Line by line -/

namespace Unfinished

/-- The blocks of a table under construction, the open one last. -/
def blocks (u : Unfinished) : List Block :=
  u.table.blocks ++ u.openBlock.toList

/-- What holds of a table under construction once the lines up to number `n` are read. -/
structure Sound (u : Unfinished) (n : Nat) : Prop where
  indexed : u.table.Indexed
  states : (u.blocks.map (·.state)).Nodup
  blocks : ∀ b ∈ u.blocks, b.WellFormed
  lines : (u.blocks.flatMap Block.lines).Pairwise (· < ·)
  range : ∀ k ∈ u.blocks.flatMap Block.lines, 0 < k ∧ k ≤ n

theorem sound_empty : Sound {} 0 where
  indexed := indexed_empty
  states := List.nodup_nil
  blocks := by rintro b ⟨⟩
  lines := List.Pairwise.nil
  range := by rintro k ⟨⟩

/-- What a line can do to a table under construction. -/
inductive Extends (u : Unfinished) (n : Nat) : Unfinished → Prop
  | opened (state method timer : String) (outside : u.openBlock = none)
      (fresh : u.table.block? state = none) (names : IsName state ∧ IsName method ∧ IsName timer) :
      Extends u n { u with openBlock := some { state, method, timer, line := n } }
  | closed (b : Block) (t : Table) (inside : u.openBlock = some b)
      (added : u.table.addBlock b = .ok t) : Extends u n { table := t, openBlock := none }
  | assigned (name value : String) (outside : u.openBlock = none) :
      Extends u n { u with table := u.table.setVariable name value }
  | declared (b : Block) (t : Transition) (inside : u.openBlock = some b) (line : t.line = n)
      (target : IsName t.target) (fresh : b.transition? t.value = none) :
      Extends u n { u with openBlock := some { b with transitions := b.transitions ++ [t] } }

theorem isName_emptyTransition : IsName Names.emptyTransition := by
  constructor
  · decide
  · exact List.all_eq_true.1 (by decide)

theorem isName_systemTimer : IsName Names.systemTimer := by
  constructor
  · decide
  · exact List.all_eq_true.1 (by decide)

/-- A line that is accepted extends the table in one of these ways. -/
theorem extends_of_addLine {u u' : Unfinished} {l : SourceLine} (h : u.addLine l = .ok u') :
    u.Extends l.number u' := by
  obtain ⟨line, hs⟩ := exists_spells_of_addLine h
  have hnames : line.NamesValid := Grammar.namesValid_of_parse (Grammar.parse_tableLine_iff.2 hs)
  cases line with
  | blockClose =>
    obtain ⟨b, hopen, t, hadd, rfl⟩ := (addLine_blockClose_iff hs).1 h
    exact .closed b t hopen hadd
  | blockOpen state method timer =>
    obtain ⟨hopen, hfresh, rfl⟩ := (addLine_blockOpen_iff hs).1 h
    obtain ⟨hstate, hmethod, htimer⟩ := hnames
    refine .opened _ _ _ hopen hfresh ⟨hstate, ?_, ?_⟩
    · cases method with
      | none => exact isName_emptyTransition
      | some m => exact hmethod m rfl
    · cases timer with
      | none => exact isName_systemTimer
      | some t => exact htimer t rfl
  | assignment name value =>
    obtain ⟨hopen, rfl⟩ := (addLine_assignment_iff hs).1 h
    exact .assigned name value hopen
  | transition value target settings =>
    obtain ⟨b, hopen, -, hfresh, rfl⟩ := (addLine_transition_iff hs).1 h
    exact .declared b _ hopen rfl hnames hfresh

/-- Lines that grow by a later one are still in order, and within the later range. -/
private theorem lines_append {lines : List Nat} {k n : Nat} (hlt : k < n)
    (hlines : lines.Pairwise (· < ·)) (hrange : ∀ i ∈ lines, 0 < i ∧ i ≤ k) :
    (lines ++ [n]).Pairwise (· < ·) ∧ ∀ i ∈ lines ++ [n], 0 < i ∧ i ≤ n := by
  constructor
  · refine List.pairwise_append.2 ⟨hlines, List.pairwise_singleton _ _, fun i hi j hj => ?_⟩
    have := hrange i hi
    rw [List.mem_singleton.1 hj]
    omega
  · intro i hi
    rcases List.mem_append.1 hi with hi | hi
    · have := hrange i hi
      omega
    · rw [List.mem_singleton.1 hi]
      omega

/-- A line keeps a table under construction sound. -/
theorem Sound.of_extends {u u' : Unfinished} {k n : Nat} (hu : u.Sound k) (hlt : k < n)
    (h : u.Extends n u') : u'.Sound n := by
  obtain ⟨hindexed, hstates, hblocks, hlines, hrange⟩ := hu
  obtain ⟨hlines', hrange'⟩ := lines_append hlt hlines hrange
  cases h with
  | opened state method timer outside fresh names =>
    -- the new block is the open one, with no transitions yet
    simp only [Unfinished.blocks, outside, Option.toList_none, List.append_nil] at *
    rw [hindexed.block?_eq, List.find?_eq_none] at fresh
    refine ⟨hindexed, ?_, ?_, ?_, ?_⟩ <;>
      simp only [Unfinished.blocks, Option.toList_some, List.map_append, List.map_singleton,
        List.flatMap_append, List.flatMap_singleton]
    · refine List.nodup_append.2 ⟨hstates, List.nodup_singleton _, fun a ha b hb => ?_⟩
      obtain ⟨b', hb', rfl⟩ := List.mem_map.1 ha
      rw [List.mem_singleton.1 hb]
      simpa using fresh b' hb'
    · intro b hb
      rcases List.mem_append.1 hb with hb | hb
      · exact hblocks b hb
      · rw [List.mem_singleton.1 hb]
        exact ⟨names.1, names.2.1, names.2.2, by rintro t ⟨⟩, List.nodup_nil⟩
    · exact hlines'
    · exact hrange'
  | closed b t inside added =>
    obtain ⟨hindexed', hadded, -⟩ := hindexed.addBlock added
    -- closing the open block moves it and changes no list of blocks
    have hsame : Unfinished.blocks { table := t, openBlock := none } = u.blocks := by
      simp [Unfinished.blocks, inside, hadded]
    refine ⟨hindexed', ?_, ?_, ?_, ?_⟩ <;> rw [hsame]
    · exact hstates
    · exact hblocks
    · exact hlines
    · exact fun i hi => ⟨(hrange i hi).1, Nat.le_trans (hrange i hi).2 (Nat.le_of_lt hlt)⟩
  | assigned name value outside =>
    refine ⟨⟨hindexed.size, hindexed.get⟩, hstates, hblocks, hlines, fun i hi => ?_⟩
    exact ⟨(hrange i hi).1, Nat.le_trans (hrange i hi).2 (Nat.le_of_lt hlt)⟩
  | declared b t inside line target fresh =>
    -- the open block is the last one, so its new line is the last of all lines
    have hb : b.WellFormed := hblocks b (by simp [Unfinished.blocks, inside])
    simp only [Unfinished.blocks, inside, Option.toList_some, List.map_append, List.map_singleton,
      List.flatMap_append, List.flatMap_singleton, List.append_assoc] at *
    have hdeclared :
        Block.lines { b with transitions := b.transitions ++ [t] } = b.lines ++ [n] := by
      simp [Block.lines, line]
    refine ⟨hindexed, ?_, ?_, ?_, ?_⟩ <;>
      simp only [Unfinished.blocks, Option.toList_some, List.map_append, List.map_singleton,
        List.flatMap_append, List.flatMap_singleton, hdeclared]
    · exact hstates
    · intro b' hb'
      rcases List.mem_append.1 hb' with hb' | hb'
      · exact hblocks b' (List.mem_append_left _ hb')
      · rw [List.mem_singleton.1 hb']
        exact hb.declare target fresh
    · exact hlines'
    · exact hrange'

/-- Lines in ascending order keep a table under construction sound. -/
theorem Sound.foldlM {lines : List SourceLine} {u u' : Unfinished} {k : Nat} (hu : u.Sound k)
    (hlines : (lines.map (·.number)).Pairwise (· < ·)) (hlt : ∀ l ∈ lines, k < l.number)
    (h : lines.foldlM addLine u = .ok u') : ∃ n, u'.Sound n := by
  induction lines generalizing u k with
  | nil =>
    cases h
    exact ⟨k, hu⟩
  | cons l rest ih =>
    rw [List.foldlM_cons] at h
    rw [List.map_cons, List.pairwise_cons] at hlines
    cases hl : u.addLine l with
    | error e => rw [hl] at h; cases h
    | ok u₁ =>
      rw [hl] at h
      have hu₁ := hu.of_extends (hlt l List.mem_cons_self) (extends_of_addLine hl)
      exact ih hu₁ hlines.2 (fun l' hl' => hlines.1 _ (List.mem_map_of_mem hl')) h

end Unfinished

/-! ## Whole tables -/

/-- A text whose lines are all accepted and whose last block is closed is compiled. -/
theorem compile_of_foldlM {source : String} {u : Unfinished}
    (h : (sourceLines source.toList).foldlM Unfinished.addLine {} = .ok u)
    (hclosed : u.openBlock = none) :
    compile source = .ok { u.table with sourceHash := Digest.sha256 source } := by
  simp only [compile, h, bind, Except.bind, Unfinished.close, hclosed, pure, Except.pure]

/-- The lines that count are numbered upwards from 1. -/
theorem sourceLines_ascending (source : List Char) :
    ((sourceLines source).map (·.number)).Pairwise (· < ·) ∧
      ∀ l ∈ sourceLines source, 0 < l.number := by
  have hnumber : ∀ (e : List Char × Nat) (l : SourceLine),
      (if (Text.trim (Text.stripComment e.1)).isEmpty then none
        else some (⟨e.2 + 1, Text.indent (Text.stripComment e.1),
          Text.trim (Text.stripComment e.1)⟩ : SourceLine)) = some l → l.number = e.2 + 1 := by
    intro e l hl
    split at hl <;> cases hl
    rfl
  constructor
  · have hindices : (Text.lines source).zipIdx.Pairwise fun e e' => e.2 < e'.2 := by
      rw [← List.pairwise_map, List.zipIdx_map_snd]
      exact List.pairwise_lt_range'
    rw [List.pairwise_map]
    refine List.Pairwise.filterMap _ (fun e e' he l hl l' hl' => ?_) hindices
    rw [hnumber e l hl, hnumber e' l' hl']
    omega
  · intro l hl
    obtain ⟨e, -, he⟩ := List.mem_filterMap.1 hl
    rw [hnumber e l he]
    omega

/-- Every table that is compiled is well formed. -/
theorem wellFormed_of_compile {source : String} {t : Table} (h : compile source = .ok t) :
    t.WellFormed := by
  unfold compile at h
  cases hfold : (sourceLines source.toList).foldlM Unfinished.addLine {} with
  | error e => rw [hfold] at h; cases h
  | ok u =>
    rw [hfold] at h
    obtain ⟨hlines, hpositive⟩ := sourceLines_ascending source.toList
    obtain ⟨n, hu⟩ := Unfinished.sound_empty.foldlM hlines hpositive hfold
    dsimp only [bind, Except.bind, Unfinished.close] at h
    cases hopen : u.openBlock with
    | some b => rw [hopen] at h; cases h
    | none =>
      rw [hopen] at h
      cases h
      obtain ⟨hindexed, hstates, hblocks, hlines, hrange⟩ := hu
      simp only [Unfinished.blocks, hopen, Option.toList_none, List.append_nil] at *
      exact ⟨⟨hindexed.size, hindexed.get⟩, hstates, hblocks, hlines, fun n hn => (hrange n hn).1⟩

end Table

end TaskTable
