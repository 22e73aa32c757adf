import Mathlib.Data.List.Induction
import TaskTable.Proofs.Table.Language

/-!
# What one line does

A line is accepted where its form is allowed, and then changes the table under construction in one
way for each form. A line that is not accepted is blamed for it.
-/

namespace TaskTable
namespace Table

open Grammar (Line PlacedSetting Setting SpellsLine parse_tableLine_iff)

/-! ## What is accepted -/

theorem read_ok_iff {l : SourceLine} {line : Line} :
    l.read = .ok line ↔ SpellsLine line l.text := by
  rw [← parse_tableLine_iff]
  unfold SourceLine.read
  cases Grammar.tableLine.parse l.text with
  | error b => simp
  | ok line' => simp

theorem word32?_eq_some_iff {digits : List Char} {n : Nat} :
    word32? digits = some n ↔
      Number.ofDigits digits < Number.twoPow 32 ∧ n = Number.ofDigits digits := by
  unfold word32?
  rw [Option.ite_none_right_eq_some, Option.some.injEq, eq_comm]

/-- What is made of a number is made if it fits. -/
theorem word32?_match_ok_iff {α : Type} {a : α} (digits : List Char) (f : Nat → α)
    (e : SourceError) :
    (match word32? digits with
      | some n => Except.ok (f n)
      | none => .error e) = .ok a ↔
      Number.ofDigits digits < Number.twoPow 32 ∧ a = f (Number.ofDigits digits) := by
  cases hdigits : word32? digits with
  | none =>
    have hlarge : ¬Number.ofDigits digits < Number.twoPow 32 := by
      intro hlt
      rw [word32?_eq_some_iff.2 ⟨hlt, rfl⟩] at hdigits
      cases hdigits
    simp [hlarge]
  | some n =>
    obtain ⟨hlt, rfl⟩ := word32?_eq_some_iff.1 hdigits
    simp [hlt, eq_comm]

theorem lastOf_concat {α : Type} (f : Setting → Option α) (settings : List PlacedSetting)
    (s : PlacedSetting) :
    lastOf f (settings ++ [s]) = (f s.setting).or (lastOf f settings) := by
  unfold lastOf
  rw [List.filterMap_append, List.getLast?_append]
  cases hs : f s.setting with
  | none => simp [hs]
  | some a => simp [hs]

/-- One more option changes what it says, if its number fits. -/
theorem applySetting_ok_iff {n indent bytes : Nat} {value target : String}
    {settings : List PlacedSetting} {s : PlacedSetting} {t : Transition} :
    applySetting n indent bytes (Declaration.transition ⟨n, value, target, settings⟩) s = .ok t ↔
      InRange s.setting ∧ t = Declaration.transition ⟨n, value, target, settings ++ [s]⟩ := by
  obtain ⟨place, setting⟩ := s
  unfold applySetting Declaration.transition
  simp only [lastOf_concat]
  cases setting with
  | wait digits => exact word32?_match_ok_iff digits _ _
  | max digits => exact word32?_match_ok_iff digits _ _
  | exec on => simp [InRange, wait?, max?, exec?, eq_comm]

/-- Options are applied if all their numbers fit, and then give the transition that is declared. -/
theorem foldlM_applySetting_ok_iff {n indent bytes : Nat} {value target : String}
    {settings : List PlacedSetting} {t : Transition} :
    settings.foldlM (applySetting n indent bytes) { value, target, line := n } = .ok t ↔
      (∀ s ∈ settings, InRange s.setting) ∧
        t = Declaration.transition ⟨n, value, target, settings⟩ := by
  induction settings using List.reverseRecOn generalizing t with
  | nil => simp [Declaration.transition, lastOf, eq_comm, pure, Except.pure]
  | append_singleton ss s ih =>
    rw [List.foldlM_append, List.forall_mem_append, List.forall_mem_singleton]
    cases hfold : ss.foldlM (applySetting n indent bytes) { value, target, line := n } with
    | error e =>
      have hlarge : ¬∀ s ∈ ss, InRange s.setting := by
        intro hss
        rw [ih.2 ⟨hss, rfl⟩] at hfold
        cases hfold
      simp [hlarge, bind, Except.bind]
    | ok t' =>
      obtain ⟨hss, rfl⟩ := ih.1 hfold
      have hone : [s].foldlM (applySetting n indent bytes)
          (Declaration.transition ⟨n, value, target, ss⟩) =
          applySetting n indent bytes (Declaration.transition ⟨n, value, target, ss⟩) s := by
        rw [List.foldlM_cons]
        simp
      show [s].foldlM (applySetting n indent bytes) _ = .ok t ↔ _
      rw [hone, applySetting_ok_iff]
      exact ⟨fun h => ⟨⟨hss, h.1⟩, h.2⟩, fun h => ⟨h.1.2, h.2⟩⟩

variable {u u' : Unfinished} {l : SourceLine}

/-- A line that is accepted spells one of the forms. -/
theorem exists_spells_of_addLine (h : u.addLine l = .ok u') : ∃ line, SpellsLine line l.text := by
  unfold Unfinished.addLine at h
  cases hread : l.read with
  | error e => rw [hread] at h; cases h
  | ok line => exact ⟨line, read_ok_iff.1 hread⟩

theorem addLine_assignment_iff {name value : String}
    (h : SpellsLine (.assignment name value) l.text) :
    u.addLine l = .ok u' ↔
      u.openBlock = none ∧ u' = { u with table := u.table.setVariable name value } := by
  unfold Unfinished.addLine
  rw [read_ok_iff.2 h]
  dsimp only [bind, Except.bind]
  cases u.openBlock <;> simp [eq_comm]

theorem addLine_blockOpen_iff {state : String} {method timer : Option String}
    (h : SpellsLine (.blockOpen state method timer) l.text) :
    u.addLine l = .ok u' ↔ u.openBlock = none ∧ u.table.block? state = none ∧
      u' = { u with openBlock := some (BlockText.block ⟨l.number, state, method, timer, []⟩) } := by
  unfold Unfinished.addLine
  rw [read_ok_iff.2 h]
  dsimp only [bind, Except.bind]
  cases u.openBlock with
  | some b => simp
  | none =>
    dsimp only
    cases u.table.block? state with
    | some first => simp
    | none => simp [BlockText.block, eq_comm]

theorem addLine_transition_iff {value target : String} {settings : List PlacedSetting}
    (h : SpellsLine (.transition value target settings) l.text) :
    u.addLine l = .ok u' ↔
      ∃ b, u.openBlock = some b ∧ (∀ s ∈ settings, InRange s.setting) ∧
        b.transition? value = none ∧
        u' = { u with openBlock := some { b with transitions :=
          b.transitions ++ [Declaration.transition ⟨l.number, value, target, settings⟩] } } := by
  unfold Unfinished.addLine
  rw [read_ok_iff.2 h]
  dsimp only [bind, Except.bind]
  cases u.openBlock with
  | none => simp
  | some b =>
    simp only [Option.some.injEq, exists_eq_left']
    cases hfold : settings.foldlM (applySetting l.number l.indent (Text.byteLength l.text))
        { value, target, line := l.number } with
    | error e =>
      have hlarge : ¬∀ s ∈ settings, InRange s.setting := by
        intro hsettings
        rw [foldlM_applySetting_ok_iff.2 ⟨hsettings, rfl⟩] at hfold
        cases hfold
      simp [hlarge]
    | ok t =>
      obtain ⟨hsettings, rfl⟩ := foldlM_applySetting_ok_iff.1 hfold
      have hvalue :
          (Declaration.transition ⟨l.number, value, target, settings⟩).value = value := rfl
      dsimp only [Block.addTransition]
      rw [hvalue, and_iff_right hsettings]
      cases b.transition? value with
      | some first => simp
      | none => simp [eq_comm]

theorem addLine_blockClose_iff (h : SpellsLine .blockClose l.text) :
    u.addLine l = .ok u' ↔ ∃ b, u.openBlock = some b ∧ ∃ t, u.table.addBlock b = .ok t ∧
      u' = { table := t, openBlock := none } := by
  unfold Unfinished.addLine
  rw [read_ok_iff.2 h]
  dsimp only [bind, Except.bind]
  cases u.openBlock with
  | none => simp
  | some b =>
    simp only [Option.some.injEq, exists_eq_left']
    cases u.table.addBlock b with
    | error cause => simp
    | ok t => simp [eq_comm]

/-! ## What is blamed -/

/-- The digits of an option that has a number. -/
def digits? : Setting → Option (List Char)
  | .wait digits | .max digits => some digits
  | .exec _ => none

/-- What is wrong with an option is its number. -/
theorem applySetting_error {n indent bytes : Nat} {t : Transition} {p : PlacedSetting}
    {e : SourceError} (h : applySetting n indent bytes t p = .error e) :
    ∃ digits, digits? p.setting = some digits ∧ word32? digits = none ∧
      e = .numberTooLarge n (indent + (bytes - p.bytesAhead) + 1) (String.ofList digits) := by
  unfold applySetting at h
  dsimp only at h
  split at h
  · next digits hdigits =>
    split at h
    · cases h
    · next hlarge =>
      cases h
      exact ⟨digits, by rw [hdigits]; rfl, hlarge, rfl⟩
  · next digits hdigits =>
    split at h
    · cases h
    · next hlarge =>
      cases h
      exact ⟨digits, by rw [hdigits]; rfl, hlarge, rfl⟩
  · cases h

/-- Steps that fail do so at one of them. -/
theorem exists_of_foldlM_error {α β ε : Type} {f : β → α → Except ε β} {l : List α} {b : β}
    {e : ε} (h : l.foldlM f b = .error e) : ∃ a ∈ l, ∃ b', f b' a = .error e := by
  induction l generalizing b with
  | nil => cases h
  | cons a l ih =>
    rw [List.foldlM_cons] at h
    cases ha : f b a with
    | error e' =>
      rw [ha] at h
      cases h
      exact ⟨a, List.mem_cons_self, b, ha⟩
    | ok b' =>
      rw [ha] at h
      obtain ⟨a', ha', hfail⟩ := ih h
      exact ⟨a', List.mem_cons_of_mem _ ha', hfail⟩

/-- The error of a line is blamed on that line. It has a column where the line matches no form, or
where a number of a transition is too large. -/
inductive Blames (l : SourceLine) : SourceError → Prop
  | mismatch (b : Grammar.Blame Grammar.Rule) (h : Grammar.tableLine.parse l.text = .error b) :
    Blames l (.unexpected l.number (l.indent + (l.text.length - b.rest) + 1) b.rules)
  | number (value target : String) (settings : List PlacedSetting) (p : PlacedSetting)
    (digits : List Char) (h : SpellsLine (.transition value target settings) l.text)
    (hp : p ∈ settings) (hdigits : digits? p.setting = some digits)
    (hlarge : word32? digits = none) :
    Blames l (.numberTooLarge l.number (l.indent + (Text.byteLength l.text - p.bytesAhead) + 1)
      (String.ofList digits))
  | structural (e : SourceError) (hline : e.line = l.number) (hcolumn : e.column? = none) :
    Blames l e

theorem blames_of_addLine_error {u : Unfinished} {l : SourceLine} {e : SourceError}
    (h : u.addLine l = .error e) : Blames l e := by
  unfold Unfinished.addLine at h
  cases hread : l.read with
  | error e' =>
    rw [hread] at h
    cases h
    unfold SourceLine.read at hread
    split at hread
    · cases hread
    · next b hparse =>
      cases hread
      exact .mismatch b hparse
  | ok line =>
    have hspells := read_ok_iff.1 hread
    rw [hread] at h
    dsimp only [bind, Except.bind] at h
    split at h
    · cases h
      exact .structural _ rfl rfl
    · split at h <;> cases h
      exact .structural _ rfl rfl
    · cases h
      exact .structural _ rfl rfl
    · split at h <;> cases h
      exact .structural _ rfl rfl
    · cases h
      exact .structural _ rfl rfl
    · cases h
    · cases h
      exact .structural _ rfl rfl
    · next value target settings b hopen =>
      split at h
      · next e' hfold =>
        cases h
        obtain ⟨p, hp, t, hfail⟩ := exists_of_foldlM_error hfold
        obtain ⟨digits, hdigits, hlarge, rfl⟩ := applySetting_error hfail
        exact .number value target settings p digits hspells hp hdigits hlarge
      · split at h <;> cases h
        exact .structural _ rfl rfl

theorem line_of_addLine_error {u : Unfinished} {l : SourceLine} {e : SourceError}
    (h : u.addLine l = .error e) : e.line = l.number := by
  cases blames_of_addLine_error h with
  | mismatch b hparse => rfl
  | number value target settings p digits hspells hp hdigits hlarge => rfl
  | structural e hline hcolumn => exact hline

end Table

end TaskTable
