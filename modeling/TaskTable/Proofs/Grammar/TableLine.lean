import TaskTable.Proofs.Grammar.Spelling

/-!
# Lines as they are read

The reader of table lines takes exactly the texts of `SpellsLine`, each for the line that it spells
(`parse_tableLine_iff`). It tries the forms of a line in order and never goes back on one that
matched, so what is to be shown is that no text of a form is taken for an earlier one.
-/

namespace TaskTable
namespace Grammar

open Reader

/-! ## From readers to texts -/

section Lines

variable {s rest : List Char} {line : Line}

/-- The forms of a line in the order in which they are tried. -/
def form : TextReader Line :=
  blockClose.orElse (blockOpen.orElse (assignment.orElse transition))

/-- What is read as an assignment has the parts of one. -/
theorem parts_of_read_assignment (h : assignment.read s = some (line, rest)) :
    ∃ name value g g' w, line = .assignment name value ∧ IsName name ∧ IsGap g ∧ IsGap g' ∧
      SpellsValue value w ∧ s = name.toList ++ (g ++ '=' :: (g' ++ (w ++ rest))) := by
  simp only [assignment, read_named, read_bind_iff, read_ident_iff, read_gap_iff, read_literal_iff,
    read_value_iff, read_pure, Option.some.injEq, Prod.mk.injEq] at h
  obtain ⟨name, _, ⟨rfl, hname, -⟩, _, _, ⟨g, hg, rfl, -⟩, _, _, rfl, _, _, ⟨g', hg', rfl, -⟩,
    value, _, ⟨w, hw, rfl, -⟩, rfl, rfl⟩ := h
  exact ⟨name, value, g, g', w, rfl, hname, hg, hg', hw, rfl⟩

/-- What is read as a transition spells it, if only a gap is left of the line. -/
theorem spells_of_read_transition (h : transition.read s = some (line, rest))
    (hrest : IsGap rest) : Spells line s := by
  unfold transition at h
  rw [read_named] at h
  obtain ⟨v, _, hvalue, h₁⟩ := read_bind_iff.1 h
  obtain ⟨_, _, hgap, h₂⟩ := read_bind_iff.1 h₁
  obtain ⟨target, _, htarget, h₃⟩ := read_bind_iff.1 h₂
  obtain ⟨_, _, hgap', h₄⟩ := read_bind_iff.1 h₃
  obtain ⟨ss, _, hspaced, hpure⟩ := read_bind_iff.1 h₄
  cases hpure
  obtain ⟨rfl, hname, hend⟩ := read_ident_iff.1 htarget
  obtain ⟨g, hg, rfl, -⟩ := read_gap_iff.1 hgap
  obtain ⟨w, hw, rfl, hbare⟩ := read_value_iff.1 hvalue
  have hsettings := spells_of_read_settings (read_bind_iff.2 ⟨_, _, hgap', hspaced⟩) hrest
  refine .transition v target ss w g _ hw hg hname hsettings ?_ hend
  -- without a gap a bare value would go on with the target
  rintro hvalueChars rfl
  obtain ⟨c, cs, hcs⟩ := List.exists_cons_of_ne_nil hname.1
  have hc : isNameChar c = true := hname.2 c (hcs ▸ List.mem_cons_self)
  have hstop := hbare hvalueChars c (by rw [hcs]; rfl)
  rw [isValueChar_of_isNameChar hc] at hstop
  cases hstop

/-- What is read as a line spells it, if only a gap is left of it. -/
theorem spells_of_read_form (h : form.read s = some (line, rest)) (hrest : IsGap rest) :
    Spells line s := by
  unfold form at h
  rw [read_orElse, Option.or_eq_some_iff, read_orElse, Option.or_eq_some_iff, read_orElse,
    Option.or_eq_some_iff] at h
  rcases h with hclose | ⟨-, hopen | ⟨-, hassign | ⟨-, htransition⟩⟩⟩
  · simp only [blockClose, read_named, read_bind_iff, read_literal_iff, read_pure,
      Option.some.injEq, Prod.mk.injEq] at hclose
    obtain ⟨_, _, rfl, rfl, rfl⟩ := hclose
    exact .blockClose _ hrest
  · obtain ⟨state, method, timer, m, t, g, rfl, hstate, hm, ht, hg, rfl⟩ :=
      parts_of_read_blockOpen hopen
    exact .blockOpen _ _ _ _ _ _ _ hstate hm ht hg hrest
  · obtain ⟨name, value, g, g', w, rfl, hname, hg, hg', hw, rfl⟩ :=
      parts_of_read_assignment hassign
    exact .assignment _ _ _ _ _ _ hname hg hg' hw hrest
  · exact spells_of_read_transition htransition hrest

/-! ## From texts to readers -/

theorem read_blockClose_of_stops (h : Stops (· == '}') s) : blockClose.read s = none := by
  unfold blockClose
  rw [read_named, read_bind, read_literal_of_stops h]
  rfl

/-- A name does not begin like the end of a block. -/
theorem stops_brace_of_isName {name : String} (h : IsName name) (rest : List Char) :
    Stops (· == '}') (name.toList ++ rest) := by
  obtain ⟨c, cs, hcs⟩ := List.exists_cons_of_ne_nil h.1
  have hc : c ≠ '}' := by
    rintro rfl
    have hname := h.2 '}' (hcs ▸ List.mem_cons_self)
    revert hname
    decide
  rw [hcs]
  exact stops_of_ne hc (cs ++ rest)

/-- Neither does a value. -/
theorem SpellsValue.stops_brace {v : String} {w : List Char} (h : SpellsValue v w)
    (rest : List Char) : Stops (· == '}') (w ++ rest) := by
  cases h with
  | single v h => exact stops_cons (by decide) _
  | double v h => exact stops_cons (by decide) _
  | bare v hne h =>
    obtain ⟨c, cs, rfl⟩ := List.exists_cons_of_ne_nil hne
    have hc : c ≠ '}' := by
      rintro rfl
      have hvalue := h '}' List.mem_cons_self
      revert hvalue
      decide
    exact stops_of_ne hc (cs ++ rest)

/-- An assignment is not read as a header, since `=` follows its name. -/
theorem read_blockOpen_of_assignment {name : String} {g : List Char} (hname : IsName name)
    (hg : IsGap g) (more : List Char) :
    blockOpen.read (name.toList ++ (g ++ '=' :: more)) = none := by
  have hend : Stops isNameChar (g ++ '=' :: more) := hg.stops_name (by decide) more
  have hgap := read_gap hg (stops_cons (c := '=') (by decide) more)
  unfold blockOpen
  rw [read_named, read_bind, read_stateName hname hend, Option.bind_some, read_bind, hgap]
  rfl

/-- An assignment is read off its text. -/
theorem read_assignment_of_spells {name value : String} {g g' w : List Char} (hname : IsName name)
    (hg : IsGap g) (hg' : IsGap g') (hw : SpellsValue value w)
    (hbare : (∀ c ∈ w, isValueChar c = true) → Stops isValueChar rest) :
    assignment.read (name.toList ++ (g ++ '=' :: (g' ++ (w ++ rest)))) =
      some (.assignment name value, rest) := by
  have hend : Stops isNameChar (g ++ '=' :: (g' ++ (w ++ rest))) := hg.stops_name (by decide) _
  have hfront := hw.stops_gap rest
  simp only [assignment, read_named, read_bind_iff, read_ident_iff, read_gap_iff, read_literal_iff,
    read_value_iff, read_pure]
  exact ⟨name, _, ⟨rfl, hname, hend⟩, (), _, ⟨g, hg, rfl, stops_cons (by decide) _⟩, (), _, rfl,
    (), _, ⟨g', hg', rfl, hfront⟩, value, rest, ⟨w, hw, rfl, hbare⟩, rfl⟩

/-- No brace stands among options. -/
theorem SpellsSettings.brace_not_mem {ss : List PlacedSetting} (h : SpellsSettings ss s) :
    '{' ∉ s := by
  have hgap : ∀ {g}, IsGap g → '{' ∉ g := fun hg hmem => absurd (hg _ hmem) (by decide)
  have hdigits : ∀ {ds : List Char}, (∀ d ∈ ds, d.isDigit = true) → '{' ∉ ds :=
    fun hds hmem => absurd (hds _ hmem) (by decide)
  induction h with
  | nil g hg => exact hgap hg
  | cons g w rest st ss hg hw hrest ih =>
    have hsetting : '{' ∉ w := by
      cases hw with
      | wait digits hne h => simpa using hdigits h
      | max digits hne h => simpa using hdigits h
      | exec on => cases on <;> decide
    simp only [List.mem_append, not_or]
    exact ⟨hgap hg, hsetting, ih⟩

/-- A transition is not read as a header. -/
theorem read_blockOpen_of_transition {value target : String} {ss : List PlacedSetting}
    {w g : List Char} (hw : SpellsValue value w) (hg : IsGap g) (htarget : IsName target)
    (hrest : SpellsSettings ss rest) :
    blockOpen.read (w ++ (g ++ (target.toList ++ rest))) = none := by
  rw [Option.eq_none_iff_forall_ne_some]
  rintro ⟨line, more⟩ h
  obtain ⟨state, method, timer, m, t, g', -, hstate, -, -, -, heq⟩ := parts_of_read_blockOpen h
  have hquote : ∀ {q : Char} {rest : List Char}, isNameChar q = false →
      q :: rest ≠ state.toList ++ (m ++ (t ++ (g' ++ '{' :: more))) :=
    fun hq hcons => append_ne_cons hstate.1 hstate.2 hq _ _ hcons.symm
  cases hw with
  | single v h => exact hquote (by decide) heq
  | double v h => exact hquote (by decide) heq
  | bare v hne h =>
    -- a bare value holds no brace, and nothing else of a transition does
    have hmem : '{' ∈ w ++ (g ++ (target.toList ++ rest)) := by
      rw [heq]
      simp
    simp only [List.mem_append] at hmem
    rcases hmem with hmem | hmem | hmem | hmem
    · exact absurd (h _ hmem) (by decide)
    · exact absurd (hg _ hmem) (by decide)
    · exact absurd (htarget.2 _ hmem) (by decide)
    · exact hrest.brace_not_mem hmem

/-- A value in front of something else is read off a text. -/
theorem read_value_of_transition {value target : String} {w g : List Char}
    (hw : SpellsValue value w) (hg : IsGap g)
    (hgap : (∀ c ∈ w, isValueChar c = true) → g ≠ []) :
    Grammar.value.read (w ++ (g ++ (target.toList ++ rest))) =
      some (value, g ++ (target.toList ++ rest)) := by
  apply read_value_of_spells hw
  intro hbare
  obtain ⟨c, cs, rfl⟩ := List.exists_cons_of_ne_nil (hgap hbare)
  exact stops_cons (isValueChar_of_isGap (hg c List.mem_cons_self)) _

/-- A transition is not read as an assignment, since its target follows its value. -/
theorem read_assignment_of_transition {value target : String} {w g : List Char}
    (hw : SpellsValue value w) (hg : IsGap g) (htarget : IsName target)
    (hgap : (∀ c ∈ w, isValueChar c = true) → g ≠ []) :
    assignment.read (w ++ (g ++ (target.toList ++ rest))) = none := by
  rw [Option.eq_none_iff_forall_ne_some]
  rintro ⟨line, more⟩ h
  obtain ⟨name, v, g₁, g₂, w', -, hname, hg₁, -, -, heq⟩ := parts_of_read_assignment h
  -- read as a value, the text gives the name, and then its target would begin with `=`
  have hbare : SpellsValue (String.ofList name.toList) name.toList :=
    .bare _ hname.1 fun c hc => isValueChar_of_isNameChar (hname.2 c hc)
  have hstop : Stops isValueChar (g₁ ++ '=' :: (g₂ ++ (w' ++ more))) :=
    stops_append (fun c hc => isValueChar_of_isGap (hg₁ c hc)) (stops_cons (by decide) _)
  have hread : Grammar.value.read (w ++ (g ++ (target.toList ++ rest))) =
      some (value, g ++ (target.toList ++ rest)) := read_value_of_transition hw hg hgap
  rw [heq, read_value_of_spells hbare fun _ => hstop] at hread
  have hbehind := congrArg (List.dropWhile isGap) (Prod.mk.inj (Option.some.inj hread)).2
  rw [dropWhile_of_stops hg₁ (stops_cons (by decide) _),
    dropWhile_of_stops hg (stops_gap_of_isName htarget rest)] at hbehind
  exact append_ne_cons htarget.1 htarget.2 (by decide) _ _ hbehind.symm

/-- A transition is read off its text. -/
theorem read_transition_of_spells {value target : String} {ss : List PlacedSetting}
    {w g : List Char} (hw : SpellsValue value w) (hg : IsGap g) (htarget : IsName target)
    (hrest : SpellsSettings ss rest) (hgap : (∀ c ∈ w, isValueChar c = true) → g ≠ [])
    (hend : Stops isNameChar rest) :
    ∃ g', IsGap g' ∧ transition.read (w ++ (g ++ (target.toList ++ rest))) =
      some (.transition value target ss, g') := by
  obtain ⟨g', hg', hsettings⟩ := read_settings_of_spells hrest
  obtain ⟨_, s', hgap', hspaced⟩ := read_bind_iff.1 hsettings
  have hfront := stops_gap_of_isName htarget rest
  refine ⟨g', hg', ?_⟩
  unfold transition
  rw [read_named]
  refine read_bind_iff.2 ⟨value, _, read_value_of_transition hw hg hgap, ?_⟩
  refine read_bind_iff.2 ⟨(), _, read_gap hg hfront, ?_⟩
  refine read_bind_iff.2 ⟨target, rest, read_stateName htarget hend, ?_⟩
  refine read_bind_iff.2 ⟨_, s', hgap', ?_⟩
  exact read_bind_iff.2 ⟨ss, g', hspaced, rfl⟩

/-- A line is read off its text up to the gap at its end. -/
theorem read_form_of_spells (h : Spells line s) :
    ∃ g, IsGap g ∧ form.read s = some (line, g) := by
  unfold form
  cases h with
  | blockClose g hg =>
    have hclose : blockClose.read ('}' :: g) = some (.blockClose, g) := by
      unfold blockClose
      rw [read_named, read_bind, read_literal_cons]
      rfl
    refine ⟨g, hg, ?_⟩
    rw [read_orElse, hclose]
    rfl
  | blockOpen state method timer m t g g' hstate hm ht hg hg' =>
    refine ⟨g', hg', ?_⟩
    rw [read_orElse, read_blockClose_of_stops (stops_brace_of_isName hstate _), Option.none_or,
      read_orElse, read_blockOpen_of_spells hstate hm ht hg]
    rfl
  | assignment name value g g' w g'' hname hg hg' hw hg'' =>
    have hbare : (∀ c ∈ w, isValueChar c = true) → Stops isValueChar g'' :=
      fun _ c hc => isValueChar_of_isGap (hg'' c (List.mem_of_head? hc))
    refine ⟨g'', hg'', ?_⟩
    rw [read_orElse, read_blockClose_of_stops (stops_brace_of_isName hname _), Option.none_or,
      read_orElse, read_blockOpen_of_assignment hname hg, Option.none_or, read_orElse,
      read_assignment_of_spells hname hg hg' hw hbare]
    rfl
  | transition value target ss w g rest hw hg htarget hrest hgap hend =>
    obtain ⟨g', hg', hread⟩ := read_transition_of_spells hw hg htarget hrest hgap hend
    refine ⟨g', hg', ?_⟩
    rw [read_orElse, read_blockClose_of_stops (hw.stops_brace _), Option.none_or, read_orElse,
      read_blockOpen_of_transition hw hg htarget hrest, Option.none_or, read_orElse,
      read_assignment_of_transition hw hg htarget hgap, Option.none_or, hread]

/-- The text of a line does not begin with a gap. -/
theorem Spells.stops_gap (h : Spells line s) : Stops isGap s := by
  cases h with
  | blockClose g hg => exact stops_cons (by decide) g
  | blockOpen state method timer m t g g' hstate hm ht hg hg' =>
    exact stops_gap_of_isName hstate _
  | assignment name value g g' w g'' hname hg hg' hw hg'' => exact stops_gap_of_isName hname _
  | transition value target ss w g rest hw hg htarget hrest hgap hend => exact hw.stops_gap _

/-- A text is taken for a table line just where it spells that line. -/
theorem parse_tableLine_iff : tableLine.parse s = .ok line ↔ SpellsLine line s := by
  have hparse : tableLine.parse s = .ok line ↔ ∃ r, tableLine.read s = some (line, r) := by
    unfold Reader.parse
    cases tableLine.read s with
    | none => simp
    | some r =>
      obtain ⟨line', r⟩ := r
      simp
  rw [hparse]
  unfold tableLine SpellsLine
  rw [read_named]
  constructor
  · rintro ⟨r, h⟩
    obtain ⟨_, _, hgap, h₁⟩ := read_bind_iff.1 h
    obtain ⟨line', _, hform, h₂⟩ := read_bind_iff.1 h₁
    obtain ⟨_, _, hgap', h₃⟩ := read_bind_iff.1 h₂
    obtain ⟨_, _, hend, hpure⟩ := read_bind_iff.1 h₃
    cases hpure
    obtain ⟨g, hg, rfl, -⟩ := read_gap_iff.1 hgap
    obtain ⟨g', hg', rfl, -⟩ := read_gap_iff.1 hgap'
    obtain ⟨rfl, -⟩ := read_endOfInput_iff.1 hend
    rw [List.append_nil] at hform
    exact ⟨g, _, hg, spells_of_read_form hform hg', rfl⟩
  · rintro ⟨g, w, hg, hw, rfl⟩
    obtain ⟨g', hg', hform⟩ := read_form_of_spells hw
    have hgap' := read_gap hg' (stops_nil isGap)
    rw [List.append_nil] at hgap'
    refine ⟨[], ?_⟩
    refine read_bind_iff.2 ⟨(), w, read_gap hg hw.stops_gap, ?_⟩
    refine read_bind_iff.2 ⟨line, g', hform, ?_⟩
    refine read_bind_iff.2 ⟨(), [], hgap', ?_⟩
    exact read_bind_iff.2 ⟨(), [], rfl, rfl⟩

end Lines

end Grammar
end TaskTable
