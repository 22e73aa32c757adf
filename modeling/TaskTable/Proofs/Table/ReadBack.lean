import TaskTable.Proofs.Table.Acceptance
import TaskTable.Proofs.Text.Plain
import TaskTable.Table.Written

/-!
# Written tables read back

A table that is written out is compiled to the same variables and blocks (`compile_written`). Each
written line spells its form and has no comment and no blank at its ends, whatever value it holds,
so that the lines of the text are the lines that were written.
-/

namespace TaskTable

open Grammar (IsGap IsName Quotable SpellsLine SpellsSettings SpellsSetting Spells stops_cons
  isGap_nil)

/-! ## What can be written -/

/-- A block that can be written down: names where names belong, values that have a written form,
none of them twice, and numbers of 32 bits. -/
structure Block.Writable (b : Block) : Prop extends b.WellFormed where
  quotable : ∀ t ∈ b.transitions, Quotable t.value
  words : ∀ t ∈ b.transitions, t.wait < Number.twoPow 32 ∧ t.max < Number.twoPow 32

instance (b : Block) : Decidable b.Writable :=
  decidable_of_iff
    ((IsName b.state ∧ IsName b.method ∧ IsName b.timer ∧ (∀ t ∈ b.transitions, IsName t.target) ∧
        b.values.Nodup) ∧
      (∀ t ∈ b.transitions, Quotable t.value) ∧
      ∀ t ∈ b.transitions, t.wait < Number.twoPow 32 ∧ t.max < Number.twoPow 32)
    ⟨fun ⟨⟨hs, hm, ht, htargets, hvalues⟩, hquotable, hwords⟩ =>
        ⟨⟨hs, hm, ht, htargets, hvalues⟩, hquotable, hwords⟩,
      fun h => ⟨⟨h.state, h.method, h.timer, h.targets, h.values⟩, h.quotable, h.words⟩⟩

namespace Table

open Text (Inert Tidy inert_name inert_digits plain_of_inert)

/-! ## Written lines are tidy -/

theorem head_of_isName {name : String} (h : IsName name) (rest : List Char) :
    ∀ c ∈ (name.toList ++ rest).head?, Text.isBlank c = false := by
  obtain ⟨d, ds, hds⟩ := List.exists_cons_of_ne_nil h.1
  intro c hc
  rw [hds] at hc
  cases hc
  exact Text.isBlank_of_isNameChar (h.2 d (hds ▸ List.mem_cons_self))

theorem tidy_writtenHeader {b : Block} (hstate : IsName b.state) (hmethod : IsName b.method)
    (htimer : IsName b.timer) : Tidy b.writtenHeader := by
  have hparts : b.writtenHeader = b.state.toList ++ (':' :: b.method.toList ++
      (' ' :: '[' :: b.timer.toList ++ [']', ' ', '{'])) := by
    simp [Block.writtenHeader]
  have hinert : Inert b.writtenHeader := by
    rw [hparts]
    have hcolon : Inert [':'] := by decide +kernel
    have hbracket : Inert [' ', '['] := by decide +kernel
    have hbrace : Inert [']', ' ', '{'] := by decide +kernel
    exact (inert_name hstate).append ((hcolon.append (inert_name hmethod)).append
      ((hbracket.append (inert_name htimer)).append hbrace))
  have hlast : b.writtenHeader.getLast? = some '{' := by
    simp [Block.writtenHeader, List.getLast?_cons]
  have hplain := plain_of_inert hinert (by simp [hparts]) (by simp [hlast])
  refine ⟨hplain, ?_, ?_⟩
  · rw [hparts]
    exact head_of_isName hstate _
  · rw [hlast]
    rintro c ⟨rfl⟩
    decide

theorem tidy_brace : Tidy ['}'] where
  toPlain := plain_of_inert (by decide +kernel) (by decide) (by decide)
  front := by rintro c ⟨rfl⟩; decide
  back := by rintro c ⟨rfl⟩; decide

theorem tidy_writtenBinding {name value : String} (hname : IsName name) (hvalue : Quotable value) :
    Tidy (writtenBinding name value) := by
  have hparts : writtenBinding name value =
      (name.toList ++ [' ', '=', ' ']) ++ Text.quoteChars value.toList := by
    simp [writtenBinding]
  have hinert : Inert (name.toList ++ [' ', '=', ' ']) :=
    (inert_name hname).append (by decide +kernel)
  refine ⟨?_, ?_, ?_⟩
  · rw [hparts]
    exact Text.plain_append hinert (Text.plain_quoteChars hvalue)
  · rw [hparts, List.append_assoc]
    exact head_of_isName hname _
  · have hlast := List.getLast?_eq_some_getLast (Text.quoteChars_ne_nil value.toList)
    intro c hc
    rw [hparts, List.getLast?_append, hlast, Option.some_or, ← hlast] at hc
    exact Text.not_isBlank_quoteChars hvalue.enclosable (.inr hc)

/-- What a written transition has behind its value. -/
def writtenRest (t : Transition) : List Char :=
  ' ' :: (t.target.toList ++ (" wait=".toList ++ (Number.digits t.wait ++ (" max=".toList ++
    (Number.digits t.max ++ (" exec=".toList ++ (if t.exec then "true" else "false").toList))))))

theorem written_eq (t : Transition) :
    t.written = Text.quoteChars t.value.toList ++ writtenRest t := by
  simp [Transition.written, writtenRest]

theorem tidy_written {t : Transition} (htarget : IsName t.target) (hvalue : Quotable t.value) :
    Tidy t.written := by
  have hinert : Inert (writtenRest t) := by
    have hblank : Inert [' '] := by decide +kernel
    have hwait : Inert " wait=".toList := by decide +kernel
    have hmax : Inert " max=".toList := by decide +kernel
    have hexec : Inert (" exec=".toList ++ (if t.exec then "true" else "false").toList) := by
      cases t.exec <;> decide +kernel
    exact hblank.append ((inert_name htarget).append (hwait.append ((inert_digits _).append
      (hmax.append ((inert_digits _).append hexec)))))
  have hlast : (writtenRest t).getLast? = some 'e' := by
    unfold writtenRest
    cases t.exec <;> simp [List.getLast?_cons]
  have hplain := plain_of_inert hinert (by simp [writtenRest]) (by simp [hlast])
  rw [written_eq]
  refine ⟨Text.plain_quoteChars_append hvalue hplain hinert, ?_, ?_⟩
  · intro c hc
    rw [List.head?_append_of_ne_nil _ (Text.quoteChars_ne_nil _)] at hc
    exact Text.not_isBlank_quoteChars hvalue.enclosable (.inl hc)
  · rw [List.getLast?_append, hlast]
    rintro c ⟨rfl⟩
    decide

/-! ## Written lines spell their forms -/

theorem isGap_blank : IsGap [' '] := by
  intro c hc
  rw [List.mem_singleton.1 hc]
  rfl

theorem spells_writtenHeader {b : Block} (hstate : IsName b.state) (hmethod : IsName b.method)
    (htimer : IsName b.timer) :
    SpellsLine (.blockOpen b.state (some b.method) (some b.timer)) b.writtenHeader := by
  have hm := Grammar.SpellsMethod.some [] [] b.method isGap_nil isGap_nil hmethod
  have ht := Grammar.SpellsTimer.some [' '] [] [] b.timer isGap_blank isGap_nil isGap_nil htimer
  have hline := Spells.blockOpen b.state _ _ _ _ [' '] [] hstate hm ht isGap_blank isGap_nil
  refine ⟨[], _, isGap_nil, hline, ?_⟩
  simp [Block.writtenHeader]

theorem spells_writtenBinding {name value : String} (hname : IsName name)
    (hvalue : Quotable value) :
    SpellsLine (.assignment name value) (writtenBinding name value) := by
  have hw := Grammar.spellsValue_quoteChars hvalue.enclosable
  have hline := Spells.assignment name value [' '] [' '] _ [] hname isGap_blank isGap_blank hw
    isGap_nil
  refine ⟨[], _, isGap_nil, hline, ?_⟩
  simp [writtenBinding]

/-- A written transition declares the transition, with every option written out. -/
theorem exists_declaration {t : Transition} (htarget : IsName t.target)
    (hvalue : Quotable t.value)
    (hwords : t.wait < Number.twoPow 32 ∧ t.max < Number.twoPow 32) (n : Nat) :
    ∃ d : Declaration, d.line = n ∧
      SpellsLine (.transition d.value d.target d.settings) t.written ∧
      d.transition = { t with line := n } ∧ ∀ s ∈ d.settings, InRange s.setting := by
  have hdigits : ∀ k, Number.digits k ≠ [] ∧ ∀ c ∈ Number.digits k, c.isDigit = true :=
    fun k => ⟨Number.digits_ne_nil k, fun c hc => Number.isDigit_of_mem_digits hc⟩
  have hexec := SpellsSettings.cons [' '] _ _ _ _ isGap_blank (SpellsSetting.exec t.exec)
    (.nil [] isGap_nil)
  have hmax := SpellsSettings.cons [' '] _ _ _ _ isGap_blank
    (SpellsSetting.max _ (hdigits t.max).1 (hdigits t.max).2) hexec
  have hwait := SpellsSettings.cons [' '] _ _ _ _ isGap_blank
    (SpellsSetting.wait _ (hdigits t.wait).1 (hdigits t.wait).2) hmax
  have hw := Grammar.spellsValue_quoteChars hvalue.enclosable
  have hline := Spells.transition t.value t.target _ _ [' '] _ hw isGap_blank htarget hwait
    (fun _ => List.cons_ne_nil _ _) (stops_cons (by decide) _)
  refine ⟨⟨n, t.value, t.target, _⟩, rfl, ⟨[], _, isGap_nil, hline, ?_⟩, ?_, ?_⟩
  · simp [written_eq, writtenRest]
  · simp [Declaration.transition, lastOf, wait?, max?, exec?, Number.ofDigits_digits]
  · simp [InRange, Number.ofDigits_digits, hwords]

/-! ## Places in the text -/

/-- Transitions on one line after the other, from line `n` on. -/
def placeTransitions (n : Nat) (ts : List Transition) : List Transition :=
  (ts.zipIdx n).map fun e => { e.1 with line := e.2 }

/-- A block with its header on line `n` and its transitions on the lines behind it. -/
def placeBlock (n : Nat) (b : Block) : Block :=
  { b with line := n, transitions := placeTransitions (n + 1) b.transitions }

/-- Blocks one after the other from line `n` on, each with a line for its closing brace. -/
def placeBlocks : Nat → List Block → List Block
  | _, [] => []
  | n, b :: bs => placeBlock n b :: placeBlocks (n + b.transitions.length + 2) bs

/-- Lines that all count, with `n` other lines before them. -/
def placeLines (n : Nat) (ls : List (List Char)) : List SourceLine :=
  (ls.zipIdx n).map fun e => ⟨e.2 + 1, 0, e.1⟩

theorem placeLines_cons (n : Nat) (l : List Char) (ls : List (List Char)) :
    placeLines n (l :: ls) = ⟨n + 1, 0, l⟩ :: placeLines (n + 1) ls := by
  simp [placeLines, List.zipIdx_cons]

theorem placeLines_append (n : Nat) (ls ls' : List (List Char)) :
    placeLines n (ls ++ ls') = placeLines n ls ++ placeLines (n + ls.length) ls' := by
  simp [placeLines, List.zipIdx_append]

theorem placeTransitions_cons (n : Nat) (t : Transition) (ts : List Transition) :
    placeTransitions n (t :: ts) = { t with line := n } :: placeTransitions (n + 1) ts := by
  simp [placeTransitions, List.zipIdx_cons]

theorem length_written (b : Block) : b.written.length = b.transitions.length + 2 := by
  simp [Block.written]

/-- Tidy lines all count, as they are. -/
theorem numbered_of_tidy {ls : List (List Char)} (h : ∀ l ∈ ls, Tidy l) :
    numbered ls = placeLines 0 ls := by
  unfold numbered placeLines
  rw [← List.filterMap_eq_map]
  apply List.filterMap_congr
  rintro ⟨l, i⟩ hl
  have htidy := h l (List.fst_mem_of_mem_zipIdx hl)
  simp [htidy.noComment, htidy.trim_eq, htidy.indent_eq, htidy.nonempty]

/-! ## Written sections -/

/-- Written transitions declare the transitions. -/
theorem exists_declarations {ts : List Transition} (htargets : ∀ t ∈ ts, IsName t.target)
    (hvalues : ∀ t ∈ ts, Quotable t.value)
    (hwords : ∀ t ∈ ts, t.wait < Number.twoPow 32 ∧ t.max < Number.twoPow 32) (n : Nat) :
    ∃ ds : List Declaration, List.Forall₂ Tells (placeLines n (ts.map Transition.written))
        (ds.map fun d => (d.line, .transition d.value d.target d.settings)) ∧
      ds.map Declaration.transition = placeTransitions (n + 1) ts ∧
      ∀ d ∈ ds, ∀ s ∈ d.settings, InRange s.setting := by
  induction ts generalizing n with
  | nil => exact ⟨[], .nil, rfl, fun _ hd => absurd hd List.not_mem_nil⟩
  | cons t ts ih =>
    rw [List.forall_mem_cons] at htargets hvalues hwords
    obtain ⟨ds, hlines, htransitions, hnumbers⟩ :=
      ih htargets.2 hvalues.2 hwords.2 (n + 1)
    obtain ⟨d, hline, hspells, htransition, hnumber⟩ :=
      exists_declaration htargets.1 hvalues.1 hwords.1 (n + 1)
    refine ⟨d :: ds, ?_, ?_, List.forall_mem_cons.2 ⟨hnumber, hnumbers⟩⟩
    · rw [List.map_cons, placeLines_cons, List.map_cons]
      exact .cons ⟨hline.symm, hspells⟩ hlines
    · rw [List.map_cons, htransition, htransitions, placeTransitions_cons]

theorem values_placeTransitions (n : Nat) (ts : List Transition) :
    (placeTransitions n ts).map (·.value) = ts.map (·.value) := by
  induction ts generalizing n with
  | nil => rfl
  | cons t ts ih => rw [placeTransitions_cons, List.map_cons, List.map_cons, ih]

/-- A written block declares the block. -/
theorem exists_blockText {b : Block} (hb : b.Writable) (n : Nat) :
    ∃ text : BlockText, List.Forall₂ Tells (placeLines n b.written)
        (text.lines ++ [(n + b.transitions.length + 2, .blockClose)]) ∧
      text.block = placeBlock (n + 1) b ∧ text.WellMade ∧ text.state = b.state := by
  obtain ⟨ds, hlines, htransitions, hnumbers⟩ :=
    exists_declarations hb.targets hb.quotable hb.words (n + 1)
  have hheader := spells_writtenHeader hb.state hb.method hb.timer
  refine ⟨⟨n + 1, b.state, some b.method, some b.timer, ds⟩, ?_, ?_, ⟨?_, hnumbers⟩, rfl⟩
  · have hbrace : List.Forall₂ Tells
        (placeLines (n + 1 + (b.transitions.map Transition.written).length) [['}']])
        [(n + b.transitions.length + 2, .blockClose)] := by
      rw [placeLines_cons, List.length_map]
      refine .cons ⟨?_, Grammar.spells_brace⟩ .nil
      show n + 1 + b.transitions.length + 1 = n + b.transitions.length + 2
      omega
    unfold Block.written
    rw [List.cons_append, placeLines_cons, placeLines_append]
    exact .cons ⟨rfl, hheader⟩ (List.rel_append hlines hbrace)
  · unfold BlockText.block placeBlock
    rw [htransitions]
    rfl
  · have hvalues : ds.map (·.value) = (ds.map Declaration.transition).map (·.value) := by
      rw [List.map_map]
      rfl
    show (ds.map (·.value)).Nodup
    rw [hvalues, htransitions, values_placeTransitions]
    exact hb.values

/-- Written blocks declare the blocks. -/
theorem exists_blockSections {bs : List Block} (h : ∀ b ∈ bs, b.Writable) (n : Nat) :
    ∃ ss : List Section, List.Forall₂ Tells (placeLines n (bs.flatMap Block.written))
        (ss.flatMap Section.lines) ∧
      blocksOf ss = placeBlocks (n + 1) bs ∧ (∀ text ∈ textsOf ss, text.WellMade) ∧
      (textsOf ss).map (·.state) = bs.map (·.state) ∧ ss.filterMap Section.variable? = [] := by
  induction bs generalizing n with
  | nil => exact ⟨[], .nil, rfl, fun _ ht => absurd ht List.not_mem_nil, rfl, rfl⟩
  | cons b bs ih =>
    rw [List.forall_mem_cons] at h
    obtain ⟨text, hlines, hblock, hmade, hstate⟩ := exists_blockText h.1 n
    obtain ⟨ss, hrest, hblocks, hmades, hstates, hvariables⟩ := ih h.2 (n + b.written.length)
    refine ⟨.block text (n + b.transitions.length + 2) :: ss, ?_, ?_, ?_, ?_, hvariables⟩
    · rw [List.flatMap_cons, placeLines_append, List.flatMap_cons]
      exact List.rel_append hlines hrest
    · have hcons : blocksOf (.block text (n + b.transitions.length + 2) :: ss) =
          text.block :: blocksOf ss := rfl
      have hnext : n + b.written.length + 1 = n + 1 + b.transitions.length + 2 := by
        rw [length_written]
        omega
      rw [hcons, hblock, hblocks, hnext]
      rfl
    · exact List.forall_mem_cons.2 ⟨hmade, hmades⟩
    · show text.state :: (textsOf ss).map (·.state) = b.state :: bs.map (·.state)
      rw [hstate, hstates]

/-- Written variables set the variables. -/
theorem exists_variableSections {es : List (String × String)}
    (h : ∀ e ∈ es, IsName e.1 ∧ Quotable e.2) (n : Nat) :
    ∃ ss : List Section,
      List.Forall₂ Tells (placeLines n (es.map fun e => writtenBinding e.1 e.2))
        (ss.flatMap Section.lines) ∧
      textsOf ss = [] ∧ ss.filterMap Section.variable? = es := by
  induction es generalizing n with
  | nil => exact ⟨[], .nil, rfl, rfl⟩
  | cons e es ih =>
    rw [List.forall_mem_cons] at h
    obtain ⟨ss, hlines, htexts, hvariables⟩ := ih h.2 (n + 1)
    refine ⟨.assignment (n + 1) e.1 e.2 :: ss, ?_, htexts, ?_⟩
    · rw [List.map_cons, placeLines_cons, List.flatMap_cons]
      exact .cons ⟨rfl, spells_writtenBinding h.1.1 h.1.2⟩ hlines
    · show e :: ss.filterMap Section.variable? = e :: es
      rw [hvariables]

/-! ## Whole tables -/

section Written

variable {bindings : List (String × String)} {blocks : List Block}

theorem tidy_writtenLines (hbindings : ∀ e ∈ bindings, IsName e.1 ∧ Quotable e.2)
    (hblocks : ∀ b ∈ blocks, b.Writable) : ∀ l ∈ writtenLines bindings blocks, Tidy l := by
  intro l hl
  rcases List.mem_append.1 hl with hl | hl
  · obtain ⟨e, he, rfl⟩ := List.mem_map.1 hl
    exact tidy_writtenBinding (hbindings e he).1 (hbindings e he).2
  · obtain ⟨b, hb, hl⟩ := List.mem_flatMap.1 hl
    have hwritable := hblocks b hb
    rcases List.mem_append.1 hl with hl | hl
    · rcases List.mem_cons.1 hl with rfl | hl
      · exact tidy_writtenHeader hwritable.state hwritable.method hwritable.timer
      · obtain ⟨t, ht, rfl⟩ := List.mem_map.1 hl
        exact tidy_written (hwritable.targets t ht) (hwritable.quotable t ht)
    · rw [List.mem_singleton.1 hl]
      exact tidy_brace

/-- A text has the lines that it is made of, whether each ends in a line feed or a line feed stands
between any two. -/
theorem lines_eq_writtenLines (hbindings : ∀ e ∈ bindings, IsName e.1 ∧ Quotable e.2)
    (hblocks : ∀ b ∈ blocks, b.Writable) {source : List Char}
    (hsource : source = Text.unlines (writtenLines bindings blocks) ∨
      source = (writtenLines bindings blocks).flatMap (· ++ ['\n'])) :
    Text.lines source = writtenLines bindings blocks := by
  have htidy := tidy_writtenLines hbindings hblocks
  rcases hsource with rfl | rfl
  · exact Text.lines_unlines fun l hl => (htidy l hl).toIsLine
  · exact Text.lines_of_plain fun l hl => (htidy l hl).toPlain

/-- Variables and blocks that are written down are a table of the language. -/
theorem exists_isTable_written (hbindings : ∀ e ∈ bindings, IsName e.1 ∧ Quotable e.2)
    (hstates : (blocks.map (·.state)).Nodup) (hblocks : ∀ b ∈ blocks, b.Writable)
    {source : String} (hsource : Text.lines source.toList = writtenLines bindings blocks) :
    ∃ ss, IsTable source ss ∧
      blocksOf ss = placeBlocks (bindings.length + 1) blocks ∧
      bindingsOf ss = .ofList bindings := by
  have htidy := tidy_writtenLines hbindings hblocks
  obtain ⟨ss, hlines, htexts, hvariables⟩ := exists_variableSections hbindings 0
  obtain ⟨ss', hlines', hblocks', hmades, hstates', hvariables'⟩ :=
    exists_blockSections hblocks (0 + bindings.length)
  have htextsOf : textsOf (ss ++ ss') = textsOf ss' := by
    unfold textsOf at htexts ⊢
    rw [List.filterMap_append, htexts, List.nil_append]
  refine ⟨ss ++ ss', ⟨?_, ?_⟩, ?_, ?_⟩
  · unfold Describes formsOf
    rw [sourceLines_eq, hsource, numbered_of_tidy htidy, writtenLines, placeLines_append,
      List.length_map, Option.elim_none, List.append_nil, List.flatMap_append]
    exact List.rel_append hlines hlines'
  · rw [htextsOf]
    constructor
    · rw [hstates']
      exact hstates
    · exact hmades
  · unfold blocksOf at hblocks' ⊢
    rw [htextsOf, hblocks', Nat.zero_add]
  · unfold bindingsOf
    rw [List.filterMap_append, hvariables, hvariables', List.append_nil]

/-- Blocks that are placed behind some lines carry the numbers of their own lines. -/
theorem getElem?_placeBlocks (before : List (List Char)) :
    ∀ b ∈ placeBlocks (before.length + 1) blocks,
      (before ++ blocks.flatMap Block.written)[b.line - 1]? = some b.writtenHeader ∧
        ∀ t ∈ b.transitions,
          (before ++ blocks.flatMap Block.written)[t.line - 1]? = some t.written := by
  induction blocks generalizing before with
  | nil => exact fun b hb => absurd hb List.not_mem_nil
  | cons b bs ih =>
    intro b' hb'
    rcases List.mem_cons.1 hb' with rfl | hb'
    · rw [List.flatMap_cons, Block.written]
      constructor
      · simp [placeBlock, Block.writtenHeader]
      · intro t ht
        obtain ⟨⟨t', i⟩, hmem, rfl⟩ := List.mem_map.1 ht
        obtain ⟨hle, hk⟩ := List.mk_mem_zipIdx_iff_le_and_getElem?_sub.1 hmem
        obtain ⟨k, rfl⟩ := Nat.exists_eq_add_of_le hle
        rw [Nat.add_sub_cancel_left] at hk
        have hline : (b.transitions.map Transition.written)[k]? = some t'.written := by
          rw [List.getElem?_map, hk]
          rfl
        have hlt := (List.getElem?_eq_some_iff.1 hline).1
        have hplace : before.length + 1 + 1 + k - 1 = before.length + (k + 1) := by omega
        show _[before.length + 1 + 1 + k - 1]? = some t'.written
        rw [hplace, List.getElem?_append_right (by omega), Nat.add_sub_cancel_left,
          List.append_assoc, List.cons_append, List.getElem?_cons_succ,
          List.getElem?_append_left hlt, hline]
    · have hnext : before.length + 1 + b.transitions.length + 2 =
          (before ++ b.written).length + 1 := by
        rw [List.length_append, length_written]
        omega
      rw [hnext] at hb'
      have hlater := ih (before ++ b.written) b' hb'
      rwa [List.append_assoc, ← List.flatMap_cons] at hlater

/-- Variables with distinct names and blocks for distinct states, written down, are compiled to
just these variables and these blocks, in order and each on its own lines of the text. -/
theorem compile_written (hnames : (bindings.map (·.1)).Nodup)
    (hbindings : ∀ e ∈ bindings, IsName e.1 ∧ Quotable e.2)
    (hstates : (blocks.map (·.state)).Nodup) (hblocks : ∀ b ∈ blocks, b.Writable)
    {source : String}
    (hsource : source.toList = Text.unlines (writtenLines bindings blocks) ∨
      source.toList = (writtenLines bindings blocks).flatMap (· ++ ['\n'])) :
    ∃ t, compile source = .ok t ∧
      (∀ name value, t.bindings.get? name = some value ↔ (name, value) ∈ bindings) ∧
      t.blocks = placeBlocks (bindings.length + 1) blocks ∧
      ∀ b ∈ t.blocks,
        (Text.lines source.toList)[b.line - 1]? = some b.writtenHeader ∧
          ∀ tr ∈ b.transitions, (Text.lines source.toList)[tr.line - 1]? = some tr.written := by
  have hlines := lines_eq_writtenLines hbindings hblocks hsource
  obtain ⟨ss, htable, hplaced, hset⟩ := exists_isTable_written hbindings hstates hblocks hlines
  obtain ⟨t, ht, hblocksOf, hbindingsOf⟩ := compile_of_isTable htable
  refine ⟨t, ht, ?_, hblocksOf.trans hplaced, ?_⟩
  · intro name value
    rw [hbindingsOf, hset]
    exact SortedMap.get?_ofList_iff hnames
  · rw [hblocksOf, hplaced, hlines]
    have hplaces := @getElem?_placeBlocks blocks (bindings.map fun e => writtenBinding e.1 e.2)
    rwa [List.length_map] at hplaces

end Written

/-- Blocks whose values look like something else, or have to be quoted. -/
def oddBlocks : List Block :=
  [{ state := "start"
     method := "pick"
     transitions :=
       [{ value := "", target := "wait", max := 4294967295, line := 0 },
        { value := "*", target := "wait", wait := 5, line := 0 },
        { value := "!", target := "failure", exec := false, line := 0 },
        { value := "#x", target := "start", line := 0 },
        { value := "a:b", target := "start", line := 0 },
        { value := "wait", target := "wait", line := 0 },
        { value := "größe = {1}", target := "start", line := 0 },
        { value := "it's", target := "finish", line := 0 }]
     line := 0 },
   { state := "wait", timer := "user", line := 0 }]

/-- These blocks are read back behind two variables. -/
theorem compile_written_oddBlocks :
    ∃ t, compile (String.ofList (Text.unlines
        (writtenLines [("name", "# no comment"), ("empty", "")] oddBlocks))) = .ok t ∧
      t.blocks = placeBlocks 3 oddBlocks := by
  have hnames : ([("name", "# no comment"), ("empty", "")].map (·.1)).Nodup := by decide
  have hbindings : ∀ e ∈ [("name", "# no comment"), ("empty", "")], IsName e.1 ∧ Quotable e.2 := by
    decide +kernel
  have hstates : (oddBlocks.map (·.state)).Nodup := by decide
  have hblocks : ∀ b ∈ oddBlocks, b.Writable := by decide +kernel
  obtain ⟨t, ht, -, hplaced, -⟩ :=
    compile_written hnames hbindings hstates hblocks (.inl String.toList_ofList)
  exact ⟨t, ht, hplaced⟩

end Table

end TaskTable
