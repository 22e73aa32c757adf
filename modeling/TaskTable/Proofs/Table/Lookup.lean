import TaskTable.Proofs.Table.Stored
import TaskTable.Proofs.Table.WellFormed

/-!
# Looking up blocks

A table is put together block by block, and may be stored and read back in between, which loses its
index. Whatever the index has become by then, blocks are found as if the list of blocks was searched
from the front (`Searchable.block?_eq`), and a block is added or refused accordingly
(`Searchable.tryAddBlock_fresh`, `Searchable.tryAddBlock_declared`). `edited_table_searched` says so
of every table that can be reached.
-/

namespace TaskTable

namespace Table

variable {t : Table} {b : Block}

/-! ## Tables that are searched -/

/-- A table in which blocks are found: its states are distinct, and it has a proper index or none.
-/
structure Searchable (t : Table) : Prop where
  states : t.states.Nodup
  index : t.Indexed ∨ t.index = .empty

theorem Searchable.of_indexed (h : t.Indexed) (hstates : t.states.Nodup) : t.Searchable :=
  ⟨hstates, .inl h⟩

/-- An index is made from the places of the blocks, each under its state. -/
theorem mem_indexOf {blocks : List Block} {s : String} {i : Nat} :
    (s, i) ∈ (blocks.zipIdx.map fun e => (e.1.state, e.2)) ↔
      ∃ b, blocks[i]? = some b ∧ b.state = s := by
  constructor
  · intro hmem
    obtain ⟨⟨b, j⟩, hb, heq⟩ := List.mem_map.1 hmem
    obtain ⟨rfl, rfl⟩ := Prod.mk.inj heq
    exact ⟨b, List.mk_mem_zipIdx_iff_getElem?.1 hb, rfl⟩
  · rintro ⟨b, hb, rfl⟩
    exact List.mem_map.2 ⟨(b, i), List.mk_mem_zipIdx_iff_getElem?.2 hb, rfl⟩

/-- The place of a state is where its only block is. -/
theorem findIdx?_state (h : t.states.Nodup) {s : String} {i : Nat} :
    (t.blocks.findIdx? fun b => b.state == s) = some i ↔
      ∃ b, t.blocks[i]? = some b ∧ b.state = s := by
  rw [List.findIdx?_eq_some_iff_getElem]
  constructor
  · rintro ⟨hi, hstate, -⟩
    exact ⟨t.blocks[i], List.getElem?_eq_getElem hi, by simpa using hstate⟩
  · rintro ⟨b, hb, rfl⟩
    obtain ⟨hi, rfl⟩ := List.getElem?_eq_some_iff.1 hb
    refine ⟨hi, beq_self_eq_true _, fun j hj hsame => ?_⟩
    -- an earlier block of that state would share it with this one
    have hlast : i < t.states.length := by rwa [Table.states, List.length_map]
    have hsame' : t.states[j]? = t.states[i]? := by
      rw [Table.states, List.getElem?_map, List.getElem?_map, List.getElem?_eq_getElem hi,
        List.getElem?_eq_getElem (Nat.lt_trans hj hi)]
      exact congrArg some (beq_iff_eq.1 hsame)
    exact List.nodup_iff_getElem?_ne_getElem?.1 h j i hj hlast hsame'

/-- An index that is made anew for distinct states is a proper one. -/
theorem indexed_reindex (h : t.states.Nodup) : t.reindex.Indexed := by
  have hkeys : ((t.blocks.zipIdx.map fun e => (e.1.state, e.2)).map (·.1)).Nodup := by
    have hstates : (t.blocks.zipIdx.map fun e => (e.1.state, e.2)).map (·.1) =
        (t.blocks.zipIdx.map (·.1)).map (·.state) := by
      rw [List.map_map, List.map_map]
      rfl
    rw [hstates, List.zipIdx_map_fst]
    exact h
  refine ⟨?_, fun s => Option.ext fun i => ?_⟩
  · show (indexOf t.blocks).size = t.blocks.length
    rw [indexOf, SortedMap.size_ofList hkeys, List.length_map, List.length_zipIdx]
  · show (indexOf t.blocks).get? s = some i ↔ (t.blocks.findIdx? fun b => b.state == s) = some i
    rw [indexOf, SortedMap.get?_ofList_iff hkeys, mem_indexOf, findIdx?_state h]

/-- The table with an index that fits its blocks. -/
def fitted (t : Table) : Table :=
  if t.isIndexed then t else t.reindex

theorem fitted_eq (t : Table) : t.fitted = { t with index := t.fitted.index } := by
  unfold fitted
  split <;> rfl

@[simp]
theorem blocks_fitted (t : Table) : t.fitted.blocks = t.blocks := by rw [fitted_eq]

@[simp]
theorem bindings_fitted (t : Table) : t.fitted.bindings = t.bindings := by rw [fitted_eq]

theorem Searchable.indexed_fitted (h : t.Searchable) : t.fitted.Indexed := by
  unfold fitted
  split
  · next hsize =>
    rcases h.index with hindexed | hempty
    · exact hindexed
    · -- only a table without blocks is indexed by the empty index
      have hnone : t.blocks = [] := by
        rw [isIndexed, hempty] at hsize
        exact List.length_eq_zero_iff.1 (beq_iff_eq.1 hsize).symm
      refine ⟨?_, fun s => ?_⟩ <;> rw [hempty, hnone] <;> rfl
  · exact indexed_reindex h.states

/-- In a searchable table a block is found as the list of blocks is searched. -/
theorem Searchable.block?_eq (h : t.Searchable) (s : String) :
    t.block? s = t.blocks.find? fun b => b.state == s := by
  rcases h.index with hindexed | hempty
  · exact hindexed.block?_eq s
  · have hfitted := h.indexed_fitted.block?_eq s
    unfold fitted at hfitted
    split at hfitted
    · exact hfitted
    · next hsize =>
      -- without an index that fits, the table is searched from the front
      rw [block?, hempty, SortedMap.get?_empty, if_neg hsize]

theorem Searchable.fitted (h : t.Searchable) : t.fitted.Searchable := by
  refine .of_indexed h.indexed_fitted ?_
  rw [Table.states, blocks_fitted]
  exact h.states

/-! ## Adding blocks -/

/-- Whether a block is added depends on the fitted table only. -/
theorem addBlock_fitted (h : t.fitted.Indexed) (b : Block) :
    t.addBlock b = t.fitted.addBlock b := by
  have hindexed : t.fitted.isIndexed = true := by simp [isIndexed, h.size]
  rw [addBlock, addBlock, if_pos hindexed]
  rfl

/-- A block is added at the end if its state has none. -/
theorem Searchable.tryAddBlock_fresh (h : t.Searchable)
    (hfresh : t.blocks.find? (fun b' => b'.state == b.state) = none) :
    ∃ t', t.tryAddBlock b = (t', .ok ()) ∧ t'.blocks = t.blocks ++ [b] ∧
      t'.bindings = t.bindings ∧ t'.Searchable := by
  have hnew : b.state ∉ t.fitted.states := by
    intro hmem
    rw [Table.states, blocks_fitted] at hmem
    obtain ⟨b', hb', hstate⟩ := List.mem_map.1 hmem
    simpa [hstate] using List.find?_eq_none.1 hfresh b' hb'
  obtain ⟨t', ht'⟩ := h.indexed_fitted.exists_addBlock hnew
  obtain ⟨hindexed, hadded, -⟩ := h.indexed_fitted.addBlock ht'
  rw [blocks_fitted] at hadded
  refine ⟨t', ?_, hadded, ?_, .of_indexed hindexed ?_⟩
  · rw [tryAddBlock, addBlock_fitted h.indexed_fitted, ht']
  · rw [bindings_of_addBlock ht', bindings_fitted]
  · rw [Table.states, hadded, List.map_append, List.map_singleton]
    refine List.nodup_append.2 ⟨h.states, List.nodup_singleton _, ?_⟩
    intro s hs s' hs'
    rw [List.mem_singleton.1 hs']
    rintro rfl
    exact hnew (by rw [Table.states, blocks_fitted]; exact hs)

/-- A block is refused if its state has one, and at most the index is changed. -/
theorem Searchable.tryAddBlock_declared (h : t.Searchable) {first : Block}
    (hfirst : t.blocks.find? (fun b' => b'.state == b.state) = some first) :
    t.tryAddBlock b = (t.fitted, .error (.duplicateBlock b.state first.line)) := by
  have hindexed : t.fitted.isIndexed = true := by simp [isIndexed, h.indexed_fitted.size]
  rw [List.find?_eq_bind_findIdx?_getElem?] at hfirst
  obtain ⟨i, hi, hget⟩ := Option.bind_eq_some_iff.1 hfirst
  have hfound : t.fitted.index.get? b.state = some i := by
    rw [h.indexed_fitted.get, blocks_fitted, hi]
  have hadd : t.addBlock b = .error (.duplicateBlock b.state first.line) := by
    rw [addBlock_fitted h.indexed_fitted, addBlock, if_pos hindexed, hfound]
    dsimp only
    rw [blocks_fitted, hget]
    rfl
  rw [tryAddBlock, hadd]
  rfl

/-! ## Tables put together step by step -/

/-- What can be done to a table while it is put together. -/
inductive Edit where
  /-- Add a block, which may be refused. -/
  | add (b : Block)
  /-- Make the index anew. -/
  | reindex
  /-- Store the table and go on with what is read back. -/
  | reload

/-- Whether the numbers of a block to be added fit their words. -/
def Edit.isExact : Edit → Bool
  | .add b => b.isExact
  | .reindex => true
  | .reload => true

/-- The table after an edit. -/
def edit (t : Table) : Edit → Table
  | .add b => (t.tryAddBlock b).1
  | .reindex => t.reindex
  | .reload => (ofText? t.toText).getD t

/-- The table after some edits. -/
def edits (t : Table) (es : List Edit) : Table :=
  es.foldl edit t

theorem edit_reload (h : t.isExact = true) : t.edit .reload = t.withoutIndex := by
  rw [edit, ofText?_toText h, Option.getD_some]

/-- An edit keeps a table searchable and exact, and changes its blocks by one more at their end, if
at all. -/
theorem Searchable.edit (h : t.Searchable) (ht : t.isExact = true) {e : Edit}
    (he : e.isExact = true) :
    (t.edit e).Searchable ∧ (t.edit e).isExact = true ∧ t.blocks <+: (t.edit e).blocks := by
  cases e with
  | add b =>
    cases hfind : t.blocks.find? fun b' => b'.state == b.state with
    | some first =>
      have hrefused : t.edit (.add b) = t.fitted :=
        congrArg Prod.fst (h.tryAddBlock_declared hfind)
      rw [hrefused]
      refine ⟨h.fitted, ?_, ?_⟩
      · rw [isExact, blocks_fitted]
        exact ht
      · exact t.blocks_fitted.symm ▸ List.prefix_rfl
    | none =>
      obtain ⟨t', hadd, hblocks, -, hsearchable⟩ := h.tryAddBlock_fresh hfind
      have hadded : t.edit (.add b) = t' := congrArg Prod.fst hadd
      have hb : b.isExact = true := he
      rw [hadded]
      refine ⟨hsearchable, ?_, ?_⟩
      · rw [isExact, hblocks, List.all_append, List.all_cons, List.all_nil, Bool.and_true, hb,
          Bool.and_true]
        exact ht
      · rw [hblocks]
        exact List.prefix_append t.blocks [b]
  | reindex => exact ⟨.of_indexed (indexed_reindex h.states) h.states, ht, List.prefix_rfl⟩
  | reload =>
    rw [edit_reload ht]
    exact ⟨⟨h.states, .inr rfl⟩, ht, List.prefix_rfl⟩

theorem Searchable.edits (h : t.Searchable) (ht : t.isExact = true) {es : List Edit}
    (hes : ∀ e ∈ es, e.isExact = true) :
    (t.edits es).Searchable ∧ (t.edits es).isExact = true ∧ t.blocks <+: (t.edits es).blocks := by
  induction es generalizing t with
  | nil => exact ⟨h, ht, List.prefix_rfl⟩
  | cons e rest ih =>
    obtain ⟨he, hrest⟩ := List.forall_mem_cons.1 hes
    obtain ⟨hsearchable, hexact, hblocks⟩ := h.edit ht he
    obtain ⟨hsearchable', hexact', hblocks'⟩ := ih hsearchable hexact hrest
    exact ⟨hsearchable', hexact', hblocks.trans hblocks'⟩

/-- A task starts where it did, whatever blocks come after the first one. -/
theorem startState_of_prefix {t t' : Table} (h : t.blocks <+: t'.blocks) {s : String}
    (hs : t.startState = .ok s) : t'.startState = .ok s := by
  unfold startState at hs ⊢
  obtain ⟨more, hmore⟩ := h
  cases hblocks : t.blocks with
  | nil =>
    rw [hblocks] at hs
    cases hs
  | cons b rest =>
    rw [hblocks] at hs hmore
    rw [← hmore]
    exact hs

/-! ## Lookups -/

/-- In a searchable table the block of a state, or the fault of having none, is what a search of the
blocks comes to. -/
theorem Searchable.block_eq (h : t.Searchable) (s : String) :
    t.block s = (t.blocks.find? fun b => b.state == s).elim (.error (.missingBlock s)) .ok := by
  rw [block, h.block?_eq]
  cases t.blocks.find? fun b => b.state == s <;> rfl

theorem Searchable.hasBlock_eq (h : t.Searchable) (s : String) :
    t.hasBlock s = t.blocks.any fun b => b.state == s := by
  rw [hasBlock, h.block?_eq, List.isSome_find?]

theorem Searchable.isKnown_eq (h : t.Searchable) (s : String) :
    t.isKnown s = (s == Names.finish || t.blocks.any fun b => b.state == s) := by
  rw [isKnown, h.hasBlock_eq]

/-- Searchable tables with the same blocks are looked up alike, whatever their indices. -/
theorem Searchable.lookup_congr {t' : Table} (h' : t'.Searchable) (h : t.Searchable)
    (hblocks : t'.blocks = t.blocks) :
    t'.block = t.block ∧ t'.hasBlock = t.hasBlock ∧ t'.isKnown = t.isKnown := by
  refine ⟨funext fun s => ?_, funext fun s => ?_, funext fun s => ?_⟩
  · rw [h'.block_eq, h.block_eq, hblocks]
  · rw [h'.hasBlock_eq, h.hasBlock_eq, hblocks]
  · rw [h'.isKnown_eq, h.isKnown_eq, hblocks]

/-- Whatever edits a table has been through, its states are distinct and looked up as its blocks are
searched from the front. A block for a state that has one is refused with the line of that one,
which changes nothing that can be looked up; any other block is added at the end. The table is read
back from its stored text, and further edits leave the start state where it is. -/
theorem edited_table_searched {es : List Edit} (hes : ∀ e ∈ es, e.isExact = true)
    (ht : t = ({} : Table).edits es) :
    t.states.Nodup ∧
    (∀ s, t.block s =
      (t.blocks.find? fun b => b.state == s).elim (.error (.missingBlock s)) .ok) ∧
    (∀ s, t.hasBlock s = t.blocks.any fun b => b.state == s) ∧
    (∀ s, t.isKnown s = (s == Names.finish || t.blocks.any fun b => b.state == s)) ∧
    (∀ b first, (t.blocks.find? fun b' => b'.state == b.state) = some first →
      ∃ t', t.tryAddBlock b = (t', .error (.duplicateBlock b.state first.line)) ∧
        t'.blocks = t.blocks ∧ t'.startState = t.startState ∧ t'.bindings = t.bindings ∧
        t'.block = t.block ∧ t'.hasBlock = t.hasBlock ∧ t'.isKnown = t.isKnown) ∧
    (∀ b, (t.blocks.find? fun b' => b'.state == b.state) = none →
      ∃ t', t.tryAddBlock b = (t', .ok ()) ∧ t'.blocks = t.blocks ++ [b] ∧
        t'.bindings = t.bindings) ∧
    ofText? t.toText = some t.withoutIndex ∧
    ∀ more, (∀ e ∈ more, e.isExact = true) → ∀ s, t.startState = .ok s →
      (t.edits more).startState = .ok s := by
  have hempty : ({} : Table).Searchable := .of_indexed indexed_empty List.nodup_nil
  obtain ⟨h, hexact, -⟩ := hempty.edits rfl hes
  rw [← ht] at h hexact
  refine ⟨h.states, h.block_eq, h.hasBlock_eq, h.isKnown_eq, fun b first hfirst => ?_,
    fun b hnone => ?_, ofText?_toText hexact, fun more hmore s => ?_⟩
  · have hstart : t.fitted.startState = t.startState := by
      rw [startState, blocks_fitted, startState]
    exact ⟨t.fitted, h.tryAddBlock_declared hfirst, t.blocks_fitted, hstart, t.bindings_fitted,
      h.fitted.lookup_congr h t.blocks_fitted⟩
  · obtain ⟨t', hadd, hblocks, hbindings, -⟩ := h.tryAddBlock_fresh hnone
    exact ⟨t', hadd, hblocks, hbindings⟩
  · exact startState_of_prefix (h.edits hexact hmore).2.2

def pollBlock : Block := { state := "poll", method := "check", line := 1 }

def reportBlock : Block := { state := "report", method := "tell", line := 4 }

/-- A block is added, the table read back, another block added, the first one refused, and the table
read back again. -/
def reloads : List Edit := [.add pollBlock, .reload, .add reportBlock, .add pollBlock, .reload]

/-- Both blocks are found although the table has no index, and a block for one of their states is
refused. -/
theorem edited_table_searched_reloads :
    (∀ e ∈ reloads, e.isExact = true) ∧
    (({} : Table).edits reloads).isIndexed = false ∧
    (({} : Table).edits reloads).block "report" = .ok reportBlock ∧
    (({} : Table).edits reloads).block "polls" = .error (.missingBlock "polls") ∧
    ∃ t', (({} : Table).edits reloads).tryAddBlock { reportBlock with line := 9 } =
        (t', .error (.duplicateBlock "report" 4)) ∧
      t'.block "report" = .ok reportBlock := by
  have hexact : ∀ e ∈ reloads, e.isExact = true := by decide
  let one : Table := { blocks := [pollBlock], index := .ofList [("poll", 0)] }
  let two : Table :=
    { blocks := [pollBlock, reportBlock], index := .ofList [("poll", 0), ("report", 1)] }
  have hfirst : ({} : Table).edit (.add pollBlock) = one := by rfl
  have hread : one.edit .reload = one.withoutIndex := edit_reload rfl
  have hsecond : one.withoutIndex.edit (.add reportBlock) = two := by rfl
  have hagain : two.edit (.add pollBlock) = two := by rfl
  have hreread : two.edit .reload = two.withoutIndex := edit_reload rfl
  have htable : ({} : Table).edits reloads = two.withoutIndex := by
    simp only [reloads, edits, List.foldl_cons, List.foldl_nil, hfirst, hread, hsecond, hagain,
      hreread]
  obtain ⟨-, hblock, -, -, hdeclared, -⟩ := edited_table_searched hexact rfl
  have hreport : (({} : Table).edits reloads).block "report" = .ok reportBlock := by
    rw [hblock, htable]
    rfl
  have hmissing : (({} : Table).edits reloads).block "polls" = .error (.missingBlock "polls") := by
    rw [hblock, htable]
    rfl
  have hfind : (({} : Table).edits reloads).blocks.find? (fun b => b.state == "report") =
      some reportBlock := by
    rw [htable]
    rfl
  obtain ⟨t', hrefused, -, -, -, hsame, -⟩ :=
    hdeclared { reportBlock with line := 9 } reportBlock hfind
  refine ⟨hexact, ?_, hreport, hmissing, t', hrefused, ?_⟩
  · rw [htable]
    rfl
  · rw [hsame, hreport]

end Table
end TaskTable
