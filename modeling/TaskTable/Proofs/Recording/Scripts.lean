import Mathlib.Data.List.Induction
import TaskTable.Proofs.Text.Plain
import TaskTable.Recording.Scripts
import TaskTable.Script.Read

/-!
# Scripts of recordings read back

The scripts that a recording prints are read as what they were printed from: a verification script
as the entries, and a simulation script as their groups. The values have to be `Quotable`, since no
written form holds a line feed or both quote characters.
-/

namespace TaskTable

namespace Text

/-- A text of plain lines loses nothing with its comments but the last line feed. -/
theorem stripComments_of_plain {ls : List (List Char)} (h : ∀ l ∈ ls, Plain l) :
    Script.stripComments (ls.flatMap (· ++ ['\n'])) = unlines ls := by
  have hmap : ls.map stripComment = ls :=
    (List.map_congr_left fun l hl => (h l hl).noComment).trans (List.map_id ls)
  rw [Script.stripComments, lines_of_plain h, hmap]

end Text

namespace Script

open Grammar Reader

/-! ## Entries -/

/-- The line of an entry in a verification script. -/
def entryLine (e : String × String) : List Char :=
  e.1.toList ++ ' ' :: Text.quoteChars e.2.toList

/-- An entry that a verification script can hold. -/
def Writable (e : String × String) : Prop :=
  IsName e.1 ∧ Quotable e.2

theorem plain_entryLine {e : String × String} (h : Writable e) : Text.Plain (entryLine e) := by
  rw [entryLine, ← List.singleton_append, ← List.append_assoc]
  refine Text.plain_append (fun c hc => ?_) (Text.plain_quoteChars h.2)
  rcases List.mem_append.1 hc with hc | hc
  · exact Text.isOrdinary_of_isNameChar (h.1.2 c hc)
  · rw [List.mem_singleton.1 hc]
    exact ⟨⟨by decide, by decide, by decide⟩, by decide⟩

theorem toList_entryText (e : String × String) : (entryText e).toList = entryLine e ++ ['\n'] := by
  simp [entryText, entryLine, Text.quote]

/-- An entry that can be read off a script, on however many lines. -/
def Legible (e : String × String) : Prop :=
  IsName e.1 ∧ Enclosable e.2

theorem Writable.legible {e : String × String} (h : Writable e) : Legible e :=
  ⟨h.1, h.2.enclosable⟩

theorem read_verifyEntry {e : String × String} (h : Legible e) {rest : List Char}
    (hrest : Stops isValueChar rest) :
    verifyEntry.read (entryLine e ++ rest) = some (e, rest) := by
  obtain ⟨c, cs, hfront, hc⟩ := exists_front_of_quoteChars e.2.toList
  have hgap : gap.read (' ' :: (Text.quoteChars e.2.toList ++ rest)) =
      some ((), Text.quoteChars e.2.toList ++ rest) :=
    read_gap_cons rfl (by rw [hfront]; exact stops_cons hc _)
  have hname := read_stateName h.1 (stops_cons (p := isNameChar) (c := ' ') rfl
    (Text.quoteChars e.2.toList ++ rest))
  unfold verifyEntry
  simp only [entryLine, List.append_assoc, List.cons_append, read_named, read_bind, hname,
    Option.bind_some, hgap, read_value h.2 hrest, read_pure]

/-- Entries below each other are read as what they are. -/
theorem read_verifyScript {es : List (String × String)} (h : ∀ e ∈ es, Legible e) :
    verifyScript.read (Text.unlines (es.map entryLine)) = some (es, []) := by
  cases es with
  | nil => exact read_whole _ (stops_nil _) (read_spaced_of_none rfl)
  | cons e es =>
    have hreads : ∀ e' ∈ e :: es, ReadsIn verifyEntry entryLine ['\n'] [] e' := by
      refine fun e' he' => ⟨exists_front_of_isName (h e' he').1 _, fun after hafter => ?_⟩
      refine read_verifyEntry (h e' he') ?_
      rcases hafter with rfl | ⟨more, rfl⟩
      · exact stops_nil _
      · exact stops_cons rfl _
    have hrow := read_spaced (List.all_eq_true.1 rfl) rfl hreads
    rw [List.append_nil] at hrow
    rw [List.map_cons, Text.unlines_cons, List.flatMap_map]
    refine read_whole _ ?_ hrow
    obtain ⟨c, cs, hfront, hc⟩ := (hreads e List.mem_cons_self).front
    rw [hfront]
    exact stops_cons hc _

/-- A verification script is read as the entries it was printed from. -/
theorem readEntries_of_writable {es : List (String × String)} (h : ∀ e ∈ es, Writable e) :
    readEntries (String.join (es.map entryText)) = .ok es := by
  have htext :
      (String.join (es.map entryText)).toList = (es.map entryLine).flatMap (· ++ ['\n']) := by
    rw [String.toList_join, List.flatMap_map, List.flatMap_map]
    exact congrArg (es.flatMap ·) (funext toList_entryText)
  have hplain : ∀ l ∈ es.map entryLine, Text.Plain l := by
    intro l hl
    obtain ⟨e, he, rfl⟩ := List.mem_map.1 hl
    exact plain_entryLine (h e he)
  have hread := read_verifyScript fun e he => (h e he).legible
  unfold readEntries readAll
  simp only [htext, Text.stripComments_of_plain hplain, Reader.parse, hread]

/-! ## Groups -/

/-- A group that a simulation script can hold. -/
structure WritableGroup (g : String × List String) : Prop where
  name : IsName g.1
  nonempty : g.2 ≠ []
  values : ∀ v ∈ g.2, Quotable v

/-- The line of a value in a group. -/
def valueLine (v : String) : List Char :=
  ' ' :: ' ' :: ' ' :: ' ' :: Text.quoteChars v.toList

/-- The lines of a group in a simulation script. -/
def groupLines (g : String × List String) : List (List Char) :=
  (g.1.toList ++ [' ', '\x7b']) :: (g.2.map valueLine ++ [['\x7d']])

theorem toList_groupText (g : String × List String) :
    (groupText g).toList = (groupLines g).flatMap (· ++ ['\n']) := by
  simp [groupText, groupLines, valueLine, Text.quote, String.toList_join, List.flatMap_map]

theorem plain_groupLines {g : String × List String} (h : WritableGroup g) :
    ∀ l ∈ groupLines g, Text.Plain l := by
  have hblank : ∀ c, c = ' ' → Text.IsOrdinary c ∧ c ≠ '\n' := by
    rintro c rfl
    exact ⟨⟨by decide, by decide, by decide⟩, by decide⟩
  intro l hl
  rcases List.mem_cons.1 hl with rfl | hl
  · have hopen : Text.Plain [' ', '\x7b'] := ⟨⟨by decide, by decide, by decide⟩, rfl⟩
    exact Text.plain_append (fun c hc => Text.isOrdinary_of_isNameChar (h.name.2 c hc)) hopen
  · rcases List.mem_append.1 hl with hl | hl
    · obtain ⟨v, hv, rfl⟩ := List.mem_map.1 hl
      have hvalue := Text.plain_quoteChars (h.values v hv)
      exact Text.plain_append (w := [' ', ' ', ' ', ' '])
        (fun c hc => hblank c (by simpa using hc)) hvalue
    · rw [List.mem_singleton.1 hl]
      exact ⟨⟨by decide, by decide, by decide⟩, rfl⟩

/-- What stands between two values of a group. -/
def valueGap : List Char := ['\n', ' ', ' ', ' ', ' ']

theorem unlines_groupLines (name v : String) (vs : List String) :
    Text.unlines (groupLines (name, v :: vs)) =
      name.toList ++ ' ' :: '\x7b' :: (valueGap ++ (Text.quoteChars v.toList ++
        ((vs.flatMap fun v => valueGap ++ Text.quoteChars v.toList) ++ ['\n', '\x7d']))) := by
  simp [groupLines, Text.unlines_cons, valueLine, List.flatMap_map, valueGap]

/-- The values of a group are read as what they are, up to the brace behind them. -/
theorem read_values {v : String} {vs : List String} (h : ∀ v' ∈ v :: vs, Quotable v')
    (rest : List Char) :
    (spaced value).read (Text.quoteChars v.toList ++
        ((vs.flatMap fun v => valueGap ++ Text.quoteChars v.toList) ++ '\n' :: '\x7d' :: rest)) =
      some (v :: vs, '\n' :: '\x7d' :: rest) := by
  have hreads : ∀ v' ∈ v :: vs, ReadsIn value (fun v => Text.quoteChars v.toList) valueGap
      ('\n' :: '\x7d' :: rest) v' := by
    refine fun v' hv' => ⟨exists_front_of_quoteChars _, fun after hafter => ?_⟩
    refine read_value (h v' hv').enclosable ?_
    rcases hafter with rfl | ⟨more, rfl⟩ <;> exact stops_cons rfl _
  refine read_spaced (List.all_eq_true.1 rfl) ?_ hreads
  rw [read_bind, read_gap_cons rfl (stops_cons rfl _)]
  exact read_value_of_stops (stops_cons rfl _) (stops_cons rfl _) (stops_cons rfl _)

/-- A group is read back, whatever follows it. -/
theorem read_scriptBlock {g : String × List String} (h : WritableGroup g) (rest : List Char) :
    scriptBlock.read (Text.unlines (groupLines g) ++ rest) = some (g, rest) := by
  obtain ⟨name, values⟩ := g
  obtain ⟨hname, hne, hvalues⟩ := h
  obtain ⟨v, vs, rfl⟩ := List.exists_cons_of_ne_nil hne
  obtain ⟨c, cs, hfront, hc⟩ := exists_front_of_quoteChars v.toList
  have hvalue := read_values hvalues rest
  rw [unlines_groupLines]
  simp only [List.append_assoc, List.cons_append, List.nil_append]
  rw [hfront] at hvalue ⊢
  -- what stands behind the first value plays no part until the values are read
  generalize (vs.flatMap fun v => valueGap ++ Text.quoteChars v.toList) ++
    '\n' :: '\x7d' :: rest = row at *
  have hstate := read_stateName hname
    (stops_cons (p := isNameChar) (c := ' ') rfl ('\x7b' :: (valueGap ++ (c :: cs ++ row))))
  have hopen : gap.read (' ' :: '\x7b' :: (valueGap ++ (c :: cs ++ row))) =
      some ((), '\x7b' :: (valueGap ++ (c :: cs ++ row))) := read_gap_cons rfl (stops_cons rfl _)
  have hgap : gap.read (valueGap ++ (c :: cs ++ row)) = some ((), c :: cs ++ row) :=
    read_gap (List.all_eq_true.1 rfl) (stops_cons hc _)
  have hclose : gap.read ('\n' :: '\x7d' :: rest) = some ((), '\x7d' :: rest) :=
    read_gap_cons rfl (stops_cons rfl _)
  simp only [List.cons_append] at hstate hopen hgap hvalue ⊢
  unfold scriptBlock
  simp only [read_named, read_bind, hstate, hopen, hgap, hvalue, hclose, read_literal_cons,
    Option.bind_some, read_pure]

/-- Groups below each other are read as what they are. -/
theorem read_script {gs : List (String × List String)} (h : ∀ g ∈ gs, WritableGroup g) :
    script.read (Text.unlines (gs.flatMap groupLines)) = some (gs, []) := by
  cases gs with
  | nil => exact read_whole _ (stops_nil _) (read_spaced_of_none rfl)
  | cons g gs =>
    have hreads : ∀ g' ∈ g :: gs,
        ReadsIn scriptBlock (fun g => Text.unlines (groupLines g)) ['\n'] [] g' := by
      refine fun g' hg' => ⟨?_, fun after _ => read_scriptBlock (h g' hg') after⟩
      rw [groupLines, Text.unlines_cons, List.append_assoc]
      exact exists_front_of_isName (h g' hg').name _
    have hrow := read_spaced (List.all_eq_true.1 rfl) rfl hreads
    have htext : Text.unlines ((g :: gs).flatMap groupLines) = Text.unlines (groupLines g) ++
        gs.flatMap fun g => ['\n'] ++ Text.unlines (groupLines g) := by
      simp only [List.flatMap_cons, groupLines, List.cons_append, Text.unlines_cons,
        List.flatMap_append, List.append_assoc, List.flatMap_assoc, List.flatMap_nil,
        List.nil_append]
    rw [List.append_nil, ← htext] at hrow
    refine read_whole _ ?_ hrow
    obtain ⟨c, cs, hfront, hc⟩ := (hreads g List.mem_cons_self).front
    rw [htext, hfront]
    exact stops_cons hc _

/-- A simulation script is read as the groups it was printed from. -/
theorem readGroups_of_writable {gs : List (String × List String)} (h : ∀ g ∈ gs, WritableGroup g) :
    readGroups (String.join (gs.map groupText)) = .ok gs := by
  have htext : (String.join (gs.map groupText)).toList =
      (gs.flatMap groupLines).flatMap (· ++ ['\n']) := by
    rw [String.toList_join, List.flatMap_map, List.flatMap_assoc]
    exact congrArg (gs.flatMap ·) (funext toList_groupText)
  have hplain : ∀ l ∈ gs.flatMap groupLines, Text.Plain l := by
    intro l hl
    obtain ⟨g, hg, hl⟩ := List.mem_flatMap.1 hl
    exact plain_groupLines (h g hg) l hl
  have hread := read_script h
  unfold readGroups readAll
  simp only [htext, Text.stripComments_of_plain hplain, Reader.parse, hread]

/-! ## Grouping -/

/-- The values of a state, in order. -/
def valuesIn (state : String) (es : List (String × String)) : List String :=
  (es.filter (·.1 = state)).map (·.2)

/-- All values in the groups of a state, in order. -/
def gathered (state : String) (gs : List (String × List String)) : List String :=
  (gs.filter (·.1 = state)).flatMap (·.2)

theorem group_concat (es : List (String × String)) (e : String × String) :
    group (es ++ [e]) = group.add (group es) e.1 e.2 := by
  unfold group
  rw [List.foldl_append]
  rfl

theorem keys_add (gs : List (String × List String)) (state value : String) :
    (group.add gs state value).map (·.1) =
      if state ∈ gs.map (·.1) then gs.map (·.1) else gs.map (·.1) ++ [state] := by
  induction gs with
  | nil => rfl
  | cons g gs ih =>
    obtain ⟨s, values⟩ := g
    rw [group.add]
    by_cases hs : s = state
    · simp [hs]
    · rw [if_neg hs, List.map_cons, ih]
      by_cases hmem : state ∈ gs.map (·.1) <;> simp [hmem, Ne.symm hs]

/-- A state has one group. -/
theorem nodup_group (es : List (String × String)) : ((group es).map (·.1)).Nodup := by
  induction es using List.reverseRecOn with
  | nil => exact List.nodup_nil
  | append_singleton es e ih =>
    rw [group_concat, keys_add]
    split
    · exact ih
    · next hnew =>
      refine List.nodup_append.2 ⟨ih, by simp, fun s hs s' hs' => ?_⟩
      rintro rfl
      exact hnew (List.mem_singleton.1 hs' ▸ hs)

theorem gathered_cons (s : String) (g : String × List String) (gs : List (String × List String)) :
    gathered s (g :: gs) = (if g.1 = s then g.2 else []) ++ gathered s gs := by
  by_cases hs : g.1 = s <;> simp [gathered, hs]

theorem gathered_of_not_mem {s : String} {gs : List (String × List String)}
    (h : s ∉ gs.map (·.1)) : gathered s gs = [] := by
  rw [gathered, List.filter_eq_nil_iff.2 fun g hg => ?_, List.flatMap_nil]
  intro hs
  exact h (List.mem_map.2 ⟨g, hg, of_decide_eq_true hs⟩)

theorem gathered_add {gs : List (String × List String)} (h : (gs.map (·.1)).Nodup)
    (state value s : String) :
    gathered s (group.add gs state value) = gathered s gs ++ if state = s then [value] else [] := by
  induction gs with
  | nil => by_cases hs : state = s <;> simp [group.add, gathered, hs]
  | cons g gs ih =>
    obtain ⟨s', values⟩ := g
    obtain ⟨hnew, hnodup⟩ := List.nodup_cons.1 h
    rw [group.add]
    split
    · next hstate =>
      subst hstate
      rw [gathered_cons, gathered_cons]
      by_cases hs : s' = s
      · -- no other group is one of this state
        rw [if_pos hs, if_pos hs, if_pos hs, gathered_of_not_mem (hs ▸ hnew), List.append_nil,
          List.append_nil]
      · rw [if_neg hs, if_neg hs, if_neg hs, List.append_nil]
    · rw [gathered_cons, gathered_cons, ih hnodup, List.append_assoc]

/-- Grouping keeps the values of each state, in order. -/
theorem gathered_group (es : List (String × String)) (state : String) :
    gathered state (group es) = valuesIn state es := by
  induction es using List.reverseRecOn with
  | nil => rfl
  | append_singleton es e ih =>
    rw [group_concat, gathered_add (nodup_group es), ih, valuesIn, valuesIn, List.filter_append,
      List.map_append]
    by_cases hs : e.1 = state <;> simp [hs]

theorem mem_add {gs : List (String × List String)} {state value : String}
    {g : String × List String} (hg : g ∈ group.add gs state value) :
    g ∈ gs ∨ ∃ values, (values = [] ∨ (state, values) ∈ gs) ∧ g = (state, values ++ [value]) := by
  induction gs with
  | nil => exact .inr ⟨[], .inl rfl, List.mem_singleton.1 hg⟩
  | cons hd gs ih =>
    obtain ⟨s, values⟩ := hd
    rw [group.add] at hg
    split at hg
    · next hs =>
      subst hs
      rcases List.mem_cons.1 hg with rfl | hg
      · exact .inr ⟨values, .inr List.mem_cons_self, rfl⟩
      · exact .inl (List.mem_cons_of_mem _ hg)
    · rcases List.mem_cons.1 hg with rfl | hg
      · exact .inl List.mem_cons_self
      · rcases ih hg with h | ⟨values', h, rfl⟩
        · exact .inl (List.mem_cons_of_mem _ h)
        · exact .inr ⟨values', h.imp_right (List.mem_cons_of_mem _), rfl⟩

/-- A group holds values of its state, and at least one. -/
theorem mem_group {es : List (String × String)} {g : String × List String} (hg : g ∈ group es) :
    g.2 ≠ [] ∧ ∀ v ∈ g.2, (g.1, v) ∈ es := by
  induction es using List.reverseRecOn generalizing g with
  | nil => cases hg
  | append_singleton es e ih =>
    rw [group_concat] at hg
    rcases mem_add hg with hg | ⟨values, hvalues, rfl⟩
    · obtain ⟨hne, hmem⟩ := ih hg
      exact ⟨hne, fun v hv => List.mem_append_left _ (hmem v hv)⟩
    · refine ⟨by simp, fun v hv => ?_⟩
      rcases List.mem_append.1 hv with hv | hv
      · rcases hvalues with rfl | hold
        · cases hv
        · exact List.mem_append_left _ ((ih hold).2 v hv)
      · rw [List.mem_singleton.1 hv]
        exact List.mem_append_right _ (by simp)

theorem writableGroup_of_mem {es : List (String × String)} (h : ∀ e ∈ es, Writable e)
    {g : String × List String} (hg : g ∈ group es) : WritableGroup g := by
  obtain ⟨hne, hmem⟩ := mem_group hg
  obtain ⟨v, hv⟩ := List.exists_mem_of_ne_nil _ hne
  exact ⟨(h _ (hmem v hv)).1, hne, fun v hv => (h _ (hmem v hv)).2⟩

end Script

namespace Recording

open Script

/-- What a recording can be replayed from: every selected entry can be written down. -/
theorem read_verificationScript {r : Recording} (h : ∀ e ∈ r.selected, Writable e) :
    readEntries r.verificationScript = .ok r.selected :=
  readEntries_of_writable h

theorem read_simulationScript {r : Recording} (h : ∀ e ∈ r.selected, Writable e) :
    readGroups r.simulationScript = .ok (group r.selected) :=
  readGroups_of_writable fun _ hg => writableGroup_of_mem h hg

end Recording

end TaskTable
