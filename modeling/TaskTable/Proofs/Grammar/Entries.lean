import TaskTable.Grammar.Script
import TaskTable.Proofs.Grammar.Exact

/-!
# The language of verification scripts

What a verification script looks like, told without a reader. Every text is a row of entries up to
its end, or breaks off at the first point where a state or a value is missing. Line ends are gaps
like any other, within an entry as well as between two.
-/

namespace TaskTable
namespace Grammar

open Reader

/-! ## Texts -/

/-- A text with an entry at its front, behind a gap, and what follows the entry. A name and a value
without quotes go on as far as they can. -/
inductive SpellsEntry : String × String → List Char → List Char → Prop
  | mk (g g' w rest : List Char) (state value : String) (hg : IsGap g) (hstate : IsName state)
    (hg' : IsGap g') (hw : SpellsValue value w) (hend : Stops isNameChar (g' ++ (w ++ rest)))
    (hrest : (∀ c ∈ w, isValueChar c = true) → Stops isValueChar rest) :
    SpellsEntry (state, value) (g ++ (state.toList ++ (g' ++ (w ++ rest)))) rest

/-- The texts that are a row of entries. -/
inductive SpellsEntries : List (String × String) → List Char → Prop
  | nil (g : List Char) (hg : IsGap g) : SpellsEntries [] g
  | cons (e : String × String) (es : List (String × String)) (s rest : List Char)
    (he : SpellsEntry e s rest) (hes : SpellsEntries es rest) : SpellsEntries (e :: es) s

/-- A text that no value stands at the front of. -/
def NoValue (s : List Char) : Prop :=
  ∀ v w rest, SpellsValue v w → s ≠ w ++ rest

/-- A text that begins with an entry which is not complete, and what is left of the text where the
state or the value is missing. -/
inductive Incomplete : List Char → List Char → Prop
  | state (g rest : List Char) (hg : IsGap g) (hne : rest ≠ []) (hgap : Stops isGap rest)
    (hname : Stops isNameChar rest) : Incomplete (g ++ rest) rest
  | value (g g' rest : List Char) (state : String) (hg : IsGap g) (hstate : IsName state)
    (hg' : IsGap g') (hend : Stops isNameChar (g' ++ rest)) (hgap : Stops isGap rest)
    (hvalue : NoValue rest) : Incomplete (g ++ (state.toList ++ (g' ++ rest))) rest

/-- A text with an entry behind some others that is not complete. -/
inductive BreaksOff : List Char → List Char → Prop
  | here (s rest : List Char) (h : Incomplete s rest) : BreaksOff s rest
  | entry (e : String × String) (s more rest : List Char) (he : SpellsEntry e s more)
    (hmore : BreaksOff more rest) : BreaksOff s rest

variable {s rest : List Char} {e : String × String} {es : List (String × String)}

/-- A text is longer than what follows its first entry. -/
theorem SpellsEntry.exists_append (h : SpellsEntry e s rest) :
    ∃ before, before ≠ [] ∧ s = before ++ rest := by
  cases h with
  | mk g g' w rest state value hg hstate hg' hw hend hrest =>
    refine ⟨g ++ (state.toList ++ (g' ++ w)), ?_, by simp⟩
    simp [hstate.1]

theorem SpellsEntry.length_lt (h : SpellsEntry e s rest) : rest.length < s.length := by
  obtain ⟨before, hne, rfl⟩ := h.exists_append
  have hpos := List.length_pos_iff.2 hne
  rw [List.length_append]
  omega

/-- A gap may be put in front of an entry. -/
theorem SpellsEntry.gap_append (h : SpellsEntry e s rest) {g : List Char} (hg : IsGap g) :
    SpellsEntry e (g ++ s) rest := by
  cases h with
  | mk g₀ g' w rest state value hg₀ hstate hg' hw hend hrest =>
    rw [← List.append_assoc]
    exact .mk _ _ _ _ _ _ (hg.append hg₀) hstate hg' hw hend hrest

theorem stops_append_congr {p : Char → Bool} {w : List Char} (hne : w ≠ []) {s : List Char}
    (h : Stops p (w ++ s)) (s' : List Char) : Stops p (w ++ s') := by
  obtain ⟨c, cs, rfl⟩ := List.exists_cons_of_ne_nil hne
  exact h

/-- An entry at the end of a line stays one when the text goes on below. -/
theorem SpellsEntry.append {l g : List Char} (h : SpellsEntry e l g) (hg : IsGap g)
    (hrest : Stops isValueChar rest) : SpellsEntry e (l ++ rest) (g ++ rest) := by
  cases h with
  | mk g₀ g' w g state value hg₀ hstate hg' hw hend hbare =>
    have hne : g' ++ w ≠ [] := by
      cases hw <;> simp_all
    have hend' : Stops isNameChar (g' ++ (w ++ (g ++ rest))) := by
      rw [← List.append_assoc] at hend ⊢
      exact stops_append_congr hne hend _
    have hbare' : Stops isValueChar (g ++ rest) :=
      stops_append (fun c hc => isValueChar_of_isGap (hg c hc)) hrest
    have hentry := SpellsEntry.mk g₀ g' w (g ++ rest) state value hg₀ hstate hg' hw hend'
      fun _ => hbare'
    simpa only [List.append_assoc] using hentry

/-- A gap may be put in front of a row of entries. -/
theorem SpellsEntries.gap_append (h : SpellsEntries es s) {g : List Char} (hg : IsGap g) :
    SpellsEntries es (g ++ s) := by
  cases h with
  | nil g' hg' => exact .nil _ (hg.append hg')
  | cons e es s rest he hes => exact .cons e es _ rest (he.gap_append hg) hes

theorem Incomplete.exists_append (h : Incomplete s rest) : ∃ before, s = before ++ rest := by
  cases h with
  | state g rest hg hne hgap hname => exact ⟨g, rfl⟩
  | value g g' rest state hg hstate hg' hend hgap hvalue =>
    exact ⟨g ++ (state.toList ++ g'), by simp⟩

/-- What a text breaks off at is its end. -/
theorem BreaksOff.exists_append (h : BreaksOff s rest) : ∃ before, s = before ++ rest := by
  induction h with
  | here s rest h => exact h.exists_append
  | entry e s more rest he hmore ih =>
    obtain ⟨before, -, rfl⟩ := he.exists_append
    obtain ⟨before', rfl⟩ := ih
    exact ⟨before ++ before', by simp⟩

theorem BreaksOff.length_le (h : BreaksOff s rest) : rest.length ≤ s.length := by
  obtain ⟨before, rfl⟩ := h.exists_append
  rw [List.length_append]
  omega

/-! ## One entry -/

/-- An entry with the gap in front of it. -/
def gapEntry : TextReader (String × String) := do
  gap
  verifyEntry

/-- What is read as an entry is one. -/
theorem read_gapEntry_iff : gapEntry.read s = some (e, rest) ↔ SpellsEntry e s rest := by
  constructor
  · intro h
    simp only [gapEntry, verifyEntry, stateName, read_bind_iff, read_named, read_gap_iff,
      read_ident_iff, read_value_iff, read_pure, Option.some.injEq, Prod.mk.injEq] at h
    obtain ⟨_, _, ⟨g, hg, rfl, -⟩, state, _, ⟨rfl, hstate, hend⟩, _, _, ⟨g', hg', rfl, -⟩,
      value, _, ⟨w, hw, rfl, hrest⟩, rfl, rfl⟩ := h
    exact .mk g g' w _ state value hg hstate hg' hw hend hrest
  · intro h
    cases h with
    | mk g g' w rest state value hg hstate hg' hw hend hrest =>
      have hfront := stops_gap_of_isName hstate (g' ++ (w ++ rest))
      have hfront' := hw.stops_gap rest
      simp only [gapEntry, verifyEntry, stateName, read_bind_iff, read_named, read_gap_iff,
        read_ident_iff, read_value_iff, read_pure]
      exact ⟨(), _, ⟨g, hg, rfl, hfront⟩, state, _, ⟨rfl, hstate, hend⟩, (), _,
        ⟨g', hg', rfl, hfront'⟩, value, rest, ⟨w, hw, rfl, hrest⟩, rfl⟩

theorem noValue_iff : NoValue s ↔ value.read s = none := by
  constructor
  · intro h
    rw [Option.eq_none_iff_forall_ne_some]
    rintro ⟨v, rest⟩ hread
    obtain ⟨w, hw, heq, -⟩ := read_value_iff.1 hread
    exact h v w rest hw heq
  · intro h v w rest hw heq
    subst heq
    -- a value without quotes may go on behind `w`
    suffices hread : ∃ v' more, value.read (w ++ rest) = some (v', more) by
      obtain ⟨v', more, hread⟩ := hread
      rw [h] at hread
      cases hread
    cases hw with
    | single v hv =>
      refine ⟨_, _, read_value_of_spells (.single v hv) fun hall => ?_⟩
      exact absurd (hall _ List.mem_cons_self) (by decide)
    | double v hv =>
      refine ⟨_, _, read_value_of_spells (.double v hv) fun hall => ?_⟩
      exact absurd (hall _ List.mem_cons_self) (by decide)
    | bare v hne hv =>
      have hparts :
          w ++ rest = (w ++ rest.takeWhile isValueChar) ++ rest.dropWhile isValueChar := by
        rw [List.append_assoc, List.takeWhile_append_dropWhile]
      have hall : ∀ c ∈ w ++ rest.takeWhile isValueChar, isValueChar c = true := by
        intro c hc
        rcases List.mem_append.1 hc with hc | hc
        · exact hv c hc
        · exact List.all_eq_true.1 List.all_takeWhile c hc
      rw [hparts]
      exact ⟨_, _, read_value_of_spells (.bare _ (by simp [hne]) hall) fun _ =>
        stops_dropWhile isValueChar rest⟩

/-! ## All texts -/

/-- A text that begins like a name has one at its front, and a gap behind it. -/
theorem exists_name_of_not_stops (h : ¬ Stops isNameChar s) :
    ∃ state g rest, IsName state ∧ IsGap g ∧ Stops isNameChar (g ++ rest) ∧ Stops isGap rest ∧
      s = state.toList ++ (g ++ rest) := by
  have hbehind : (s.dropWhile isNameChar).takeWhile isGap ++
      (s.dropWhile isNameChar).dropWhile isGap = s.dropWhile isNameChar :=
    List.takeWhile_append_dropWhile
  refine ⟨String.ofList (s.takeWhile isNameChar), (s.dropWhile isNameChar).takeWhile isGap,
    (s.dropWhile isNameChar).dropWhile isGap, ⟨?_, ?_⟩, ?_, ?_, stops_dropWhile _ _, ?_⟩
  · rw [String.toList_ofList]
    cases s with
    | nil => exact absurd (stops_nil isNameChar) h
    | cons c cs =>
      have hc : isNameChar c = true := by
        rw [← Bool.not_eq_false]
        exact fun hc => h (stops_cons hc cs)
      simp [hc]
  · rw [String.toList_ofList]
    exact List.all_eq_true.1 List.all_takeWhile
  · exact List.all_eq_true.1 List.all_takeWhile
  · rw [hbehind]
    exact stops_dropWhile isNameChar s
  · rw [hbehind, String.toList_ofList, List.takeWhile_append_dropWhile]

/-- A text that no entry is read off is a gap, or its first entry is not complete. -/
theorem isGap_or_incomplete (h : gapEntry.read s = none) :
    IsGap s ∨ ∃ rest, Incomplete s rest := by
  have hg : IsGap (s.takeWhile isGap) := List.all_eq_true.1 List.all_takeWhile
  have hparts : s.takeWhile isGap ++ s.dropWhile isGap = s := List.takeWhile_append_dropWhile
  have hgap := stops_dropWhile isGap s
  by_cases hend : s.dropWhile isGap = []
  · rw [hend, List.append_nil] at hparts
    exact .inl (hparts ▸ hg)
  by_cases hname : Stops isNameChar (s.dropWhile isGap)
  · have hlack := Incomplete.state _ _ hg hend hgap hname
    rw [hparts] at hlack
    exact .inr ⟨_, hlack⟩
  -- there is a state, so that its value must be missing
  obtain ⟨state, g', rest, hstate, hg', hstops, hrest, htext⟩ := exists_name_of_not_stops hname
  rw [htext] at hparts
  have hvalue : NoValue rest := by
    rw [noValue_iff, Option.eq_none_iff_forall_ne_some]
    rintro ⟨v, more⟩ hread
    obtain ⟨w, hw, rfl, hbare⟩ := read_value_iff.1 hread
    have hentry := read_gapEntry_iff.2 (.mk _ g' w more state v hg hstate hg' hw hstops hbare)
    rw [hparts, h] at hentry
    cases hentry
  have hlack := Incomplete.value _ _ _ _ hg hstate hg' hstops hrest hvalue
  rw [hparts] at hlack
  exact .inr ⟨rest, hlack⟩

/-- Every text is a row of entries or breaks off. -/
theorem spells_or_breaksOff (s : List Char) :
    (∃ es, SpellsEntries es s) ∨ ∃ rest, BreaksOff s rest := by
  induction hlength : s.length using Nat.strongRecOn generalizing s with
  | _ n ih =>
    subst hlength
    cases hread : gapEntry.read s with
    | some r =>
      obtain ⟨e, rest⟩ := r
      have he := read_gapEntry_iff.1 hread
      rcases ih _ he.length_lt rest rfl with ⟨es, hes⟩ | ⟨more, hmore⟩
      · exact .inl ⟨e :: es, .cons e es s rest he hes⟩
      · exact .inr ⟨more, .entry e s rest more he hmore⟩
    | none =>
      rcases isGap_or_incomplete hread with hg | ⟨rest, hlack⟩
      · exact .inl ⟨[], .nil s hg⟩
      · exact .inr ⟨rest, .here s rest hlack⟩

end Grammar
end TaskTable
