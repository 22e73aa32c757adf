import Mathlib.Data.List.Forall2
import Mathlib.Data.List.Nodup
import TaskTable.Proofs.Grammar.TableLine
import TaskTable.Table.Compile

/-!
# The language of tables

Which texts are tables, told without the compiler: a table is a row of assignments and of blocks,
each block from its header to its closing brace (`Describes`), with distinct states, distinct values
in each block and numbers of 32 bits (`WellMade`). Assignments, headers and transitions keep the
numbers of the lines that they stand on.
-/

namespace TaskTable

open Grammar (Line PlacedSetting Setting SpellsLine)

namespace Table

/-! ## Blocks as they are written -/

/-- A transition as it is declared. -/
structure Declaration where
  line : Nat
  value : String
  target : String
  settings : List PlacedSetting

/-- A block as it is declared, without its closing brace. -/
structure BlockText where
  line : Nat
  state : String
  method : Option String
  timer : Option String
  declarations : List Declaration

/-- The wait that an option gives. -/
def wait? : Setting → Option Nat
  | .wait digits => some (Number.ofDigits digits)
  | _ => none

/-- The limit that an option gives. -/
def max? : Setting → Option Nat
  | .max digits => some (Number.ofDigits digits)
  | _ => none

/-- What an option says of the handler. -/
def exec? : Setting → Option Bool
  | .exec on => some on
  | _ => none

/-- What the last of the options that say it says. -/
def lastOf {α : Type} (f : Setting → Option α) (settings : List PlacedSetting) : Option α :=
  (settings.filterMap fun s => f s.setting).getLast?

/-- The transition that is declared. Options that are not given keep their defaults. -/
def Declaration.transition (d : Declaration) : Transition where
  value := d.value
  target := d.target
  wait := (lastOf wait? d.settings).getD 0
  max := (lastOf max? d.settings).getD 0
  exec := (lastOf exec? d.settings).getD true
  line := d.line

/-- The block that is declared. -/
def BlockText.block (b : BlockText) : Block where
  state := b.state
  method := b.method.getD Names.emptyTransition
  timer := b.timer.getD Names.systemTimer
  transitions := b.declarations.map Declaration.transition
  line := b.line

/-! ## Tables as they are written -/

/-- What stands at the top level of a table. -/
inductive Section
  | assignment (line : Nat) (name value : String)
  | block (text : BlockText) (closing : Nat)

/-- The header and the transitions of a block, with the numbers of their lines. -/
def BlockText.lines (b : BlockText) : List (Nat × Line) :=
  (b.line, .blockOpen b.state b.method b.timer) ::
    b.declarations.map fun d => (d.line, .transition d.value d.target d.settings)

/-- The lines of a section, with their numbers. -/
def Section.lines : Section → List (Nat × Line)
  | assignment n name value => [(n, .assignment name value)]
  | block text closing => text.lines ++ [(closing, .blockClose)]

/-- The block of a section, if it is one. -/
def Section.text? : Section → Option BlockText
  | assignment .. => none
  | block text _ => some text

/-- The variable of a section, if it sets one. -/
def Section.variable? : Section → Option (String × String)
  | assignment _ name value => some (name, value)
  | block .. => none

/-- The lines of sections and of a last block that is not closed. -/
def formsOf (sections : List Section) (last : Option BlockText) : List (Nat × Line) :=
  sections.flatMap Section.lines ++ last.elim [] BlockText.lines

/-- The blocks among sections, as they are written. -/
def textsOf (sections : List Section) : List BlockText :=
  sections.filterMap Section.text?

/-- The blocks that sections declare, in order. -/
def blocksOf (sections : List Section) : List Block :=
  (textsOf sections).map BlockText.block

/-- The variables that sections set; of two values for one name the later one counts. -/
def bindingsOf (sections : List Section) : SortedMap String String :=
  .ofList (sections.filterMap Section.variable?)

/-- The number of an option fits into 32 bits. -/
def InRange : Setting → Prop
  | .wait digits | .max digits => Number.ofDigits digits < Number.twoPow 32
  | .exec _ => True

/-- A block declares no value twice, and all its numbers fit. -/
structure BlockText.WellMade (b : BlockText) : Prop where
  values : (b.declarations.map (·.value)).Nodup
  numbers : ∀ d ∈ b.declarations, ∀ s ∈ d.settings, InRange s.setting

/-- Blocks declare no state twice, and each of them is well made. -/
structure WellMade (texts : List BlockText) : Prop where
  states : (texts.map (·.state)).Nodup
  blocks : ∀ b ∈ texts, b.WellMade

/-- A line of a text has this number and spells this form. -/
def Tells (l : SourceLine) (f : Nat × Line) : Prop :=
  l.number = f.1 ∧ SpellsLine f.2 l.text

/-- The lines of a text, blank ones and comments apart, are the lines of sections and of a last
block that is not closed. -/
def Describes (lines : List SourceLine) (sections : List Section) (last : Option BlockText) :
    Prop :=
  List.Forall₂ Tells lines (formsOf sections last)

/-- A text is a table made of these sections. -/
structure IsTable (source : String) (sections : List Section) : Prop where
  describes : Describes (sourceLines source.toList) sections none
  wellMade : WellMade (textsOf sections)

/-! ## Numbered lines -/

/-- The lines that count among raw ones. -/
def numbered (raw : List (List Char)) : List SourceLine :=
  raw.zipIdx.filterMap fun (l, i) =>
    let stripped := Text.stripComment l
    let text := Text.trim stripped
    if text.isEmpty then none else some ⟨i + 1, Text.indent stripped, text⟩

theorem sourceLines_eq (source : List Char) : sourceLines source = numbered (Text.lines source) :=
  rfl

/-! ## One more line -/

/-- How one more line goes on with what stands before it. -/
inductive Follows : Nat × Line → List Section → Option BlockText → List Section →
    Option BlockText → Prop
  | assignment (ss : List Section) (n : Nat) (name value : String) :
    Follows (n, .assignment name value) ss none (ss ++ [.assignment n name value]) none
  | header (ss : List Section) (n : Nat) (state : String) (method timer : Option String) :
    Follows (n, .blockOpen state method timer) ss none ss (some ⟨n, state, method, timer, []⟩)
  | declaration (ss : List Section) (b : BlockText) (n : Nat) (value target : String)
    (settings : List PlacedSetting) :
    Follows (n, .transition value target settings) ss (some b) ss
      (some { b with declarations := b.declarations ++ [⟨n, value, target, settings⟩] })
  | close (ss : List Section) (b : BlockText) (n : Nat) :
    Follows (n, .blockClose) ss (some b) (ss ++ [.block b n]) none

variable {f : Nat × Line} {ss ss' : List Section} {last last' : Option BlockText}

/-- The new line is the last one. -/
theorem Follows.formsOf_eq (h : Follows f ss last ss' last') :
    formsOf ss' last' = formsOf ss last ++ [f] := by
  cases h with
  | assignment => simp [formsOf, Section.lines]
  | header => simp [formsOf, BlockText.lines]
  | declaration => simp [formsOf, BlockText.lines]
  | close => simp [formsOf, Section.lines]

/-- Whatever line is the last one has followed what stands before it. -/
theorem exists_follows (h : formsOf ss' last' ≠ []) : ∃ f ss last, Follows f ss last ss' last' := by
  cases last' with
  | some b =>
    obtain ⟨line, state, method, timer, declarations⟩ := b
    rcases List.eq_nil_or_concat declarations with rfl | ⟨ds, d, rfl⟩
    · exact ⟨_, ss', none, .header ss' line state method timer⟩
    · rw [List.concat_eq_append]
      exact ⟨_, ss', some ⟨line, state, method, timer, ds⟩,
        .declaration ss' _ d.line d.value d.target d.settings⟩
  | none =>
    rcases List.eq_nil_or_concat ss' with rfl | ⟨ss, s, rfl⟩
    · exact absurd rfl h
    · rw [List.concat_eq_append]
      cases s with
      | assignment n name value => exact ⟨_, ss, none, .assignment ss n name value⟩
      | block text closing => exact ⟨_, ss, some text, .close ss text closing⟩

/-- Lines are described by going on with a description of all but the last. -/
theorem describes_concat_iff {lines : List SourceLine} {l : SourceLine} :
    Describes (lines ++ [l]) ss' last' ↔
      ∃ ss last line, Describes lines ss last ∧ SpellsLine line l.text ∧
        Follows (l.number, line) ss last ss' last' := by
  have hconcat : ∀ {fs : List (Nat × Line)} {f : Nat × Line},
      List.Forall₂ Tells (lines ++ [l]) (fs ++ [f]) ↔ List.Forall₂ Tells lines fs ∧ Tells l f := by
    intro fs f
    rw [← List.forall₂_reverse_iff, List.reverse_concat, List.reverse_concat, List.forall₂_cons,
      List.forall₂_reverse_iff, and_comm]
  unfold Describes
  constructor
  · intro h
    have hne : formsOf ss' last' ≠ [] := by
      intro hnil
      rw [hnil, List.forall₂_nil_right_iff] at h
      exact List.append_ne_nil_of_right_ne_nil lines (List.cons_ne_nil l []) h
    obtain ⟨⟨n, line⟩, ss, last, hfollows⟩ := exists_follows hne
    rw [hfollows.formsOf_eq, hconcat] at h
    obtain ⟨hlines, rfl, hspells⟩ := h
    exact ⟨ss, last, line, hlines, hspells, hfollows⟩
  · rintro ⟨ss, last, line, hlines, hspells, hfollows⟩
    rw [hfollows.formsOf_eq, hconcat]
    exact ⟨hlines, rfl, hspells⟩

theorem describes_nil_iff : Describes [] ss last ↔ ss = [] ∧ last = none := by
  unfold Describes
  rw [List.forall₂_nil_left_iff]
  constructor
  · intro h
    cases last with
    | some b => simp [formsOf, BlockText.lines] at h
    | none =>
      cases ss with
      | nil => exact ⟨rfl, rfl⟩
      | cons s ss => cases s <;> simp [formsOf, Section.lines] at h
  · rintro ⟨rfl, rfl⟩
    rfl

/-! ## One more block -/

theorem nodup_map_concat_iff {α β : Type} {f : α → β} {as : List α} {a : α} :
    ((as ++ [a]).map f).Nodup ↔ f a ∉ as.map f ∧ (as.map f).Nodup := by
  rw [List.map_append, List.map_singleton, ← List.concat_eq_append, List.nodup_concat]

theorem wellMade_concat_iff {texts : List BlockText} {b : BlockText} :
    WellMade (texts ++ [b]) ↔ WellMade texts ∧ b.state ∉ texts.map (·.state) ∧ b.WellMade := by
  constructor
  · rintro ⟨hstates, hblocks⟩
    rw [nodup_map_concat_iff] at hstates
    rw [List.forall_mem_append, List.forall_mem_singleton] at hblocks
    exact ⟨⟨hstates.2, hblocks.1⟩, hstates.1, hblocks.2⟩
  · rintro ⟨⟨hstates, hblocks⟩, hfresh, hb⟩
    constructor
    · exact nodup_map_concat_iff.2 ⟨hfresh, hstates⟩
    · rw [List.forall_mem_append, List.forall_mem_singleton]
      exact ⟨hblocks, hb⟩

/-- One more transition keeps a block well made if it is for another value and its numbers fit. -/
theorem BlockText.wellMade_concat_iff {b : BlockText} {d : Declaration} :
    BlockText.WellMade { b with declarations := b.declarations ++ [d] } ↔
      b.WellMade ∧ d.value ∉ b.declarations.map (·.value) ∧
        ∀ s ∈ d.settings, InRange s.setting := by
  constructor
  · rintro ⟨hvalues, hnumbers⟩
    rw [nodup_map_concat_iff] at hvalues
    rw [List.forall_mem_append, List.forall_mem_singleton] at hnumbers
    exact ⟨⟨hvalues.2, hnumbers.1⟩, hvalues.1, hnumbers.2⟩
  · rintro ⟨⟨hvalues, hnumbers⟩, hfresh, hd⟩
    constructor
    · exact nodup_map_concat_iff.2 ⟨hfresh, hvalues⟩
    · rw [List.forall_mem_append, List.forall_mem_singleton]
      exact ⟨hnumbers, hd⟩

/-- The blocks of sections to which one is added. -/
theorem textsOf_concat (ss : List Section) (s : Section) :
    textsOf (ss ++ [s]) = textsOf ss ++ s.text?.toList := by
  rw [textsOf, List.filterMap_append]
  cases s <;> rfl

/-- What is well made with its last line is well made without it. -/
theorem WellMade.of_follows (hw : WellMade (textsOf ss' ++ last'.toList))
    (h : Follows f ss last ss' last') : WellMade (textsOf ss ++ last.toList) := by
  cases h with
  | assignment =>
    rw [textsOf_concat] at hw
    simpa [Section.text?] using hw
  | header => simpa using (wellMade_concat_iff.1 hw).1
  | declaration =>
    obtain ⟨htexts, hfresh, hb⟩ := wellMade_concat_iff.1 hw
    exact wellMade_concat_iff.2 ⟨htexts, hfresh, (BlockText.wellMade_concat_iff.1 hb).1⟩
  | close =>
    rw [textsOf_concat] at hw
    simpa [Section.text?] using hw

end Table

end TaskTable
