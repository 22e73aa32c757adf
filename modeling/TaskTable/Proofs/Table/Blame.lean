import TaskTable.Proofs.Table.Acceptance
import TaskTable.Proofs.Text.Lines

/-!
# Which line is blamed

A text that is not compiled is blamed on its first line that no table has at this place: the lines
before it begin some table, and with it they begin none (`Extendable`). Only when all lines begin
some table is the last block blamed, for not being closed.
-/

namespace TaskTable
namespace Table

/-! ## Lines that count -/

/-- Whether a line counts does not depend on the lines behind it. -/
theorem numbered_append (raw more : List (List Char)) :
    ∃ rest, numbered (raw ++ more) = numbered raw ++ rest := by
  unfold numbered
  rw [List.zipIdx_append, List.filterMap_append]
  exact ⟨_, rfl⟩

/-- One more line counts with its number, or does not count. -/
theorem numbered_concat (raw : List (List Char)) (l : List Char) :
    numbered (raw ++ [l]) = numbered raw ∨ ∃ s : SourceLine, s.number = raw.length + 1 ∧
      numbered (raw ++ [l]) = numbered raw ++ [s] := by
  unfold numbered
  rw [List.zipIdx_append, List.filterMap_append]
  by_cases hempty : Text.trim (Text.stripComment l) = []
  · left
    simp [hempty]
  · right
    refine ⟨⟨raw.length + 1, Text.indent (Text.stripComment l), Text.trim (Text.stripComment l)⟩,
      rfl, ?_⟩
    simp [hempty]

theorem numbered_concat_brace (raw : List (List Char)) :
    numbered (raw ++ [['}']]) = numbered raw ++ [⟨raw.length + 1, 0, ['}']⟩] := by
  unfold numbered
  rw [List.zipIdx_append, List.filterMap_append]
  simp
  rfl

/-- A line that is not accepted is not accepted whatever is behind it. -/
theorem readLines_append_error {lines : List SourceLine} {e : SourceError}
    (h : readLines lines = .error e) (more : List SourceLine) :
    readLines (lines ++ more) = .error e := by
  unfold readLines at h ⊢
  rw [List.foldlM_append, h]
  rfl

/-- Lines that are not all accepted fail at one of them, which is blamed. -/
theorem exists_first_error {raw : List (List Char)} {e : SourceError}
    (h : readLines (numbered raw) = .error e) :
    ∃ n < raw.length, (∃ u, readLines (numbered (raw.take n)) = .ok u) ∧
      readLines (numbered (raw.take (n + 1))) = .error e ∧ e.line = n + 1 := by
  induction raw using List.reverseRecOn with
  | nil => cases h
  | append_singleton raw l ih =>
    cases hraw : readLines (numbered raw) with
    | error e' =>
      obtain ⟨rest, hrest⟩ := numbered_append raw [l]
      rw [hrest, readLines_append_error hraw] at h
      cases h
      obtain ⟨n, hn, hok, herror, hline⟩ := ih hraw
      refine ⟨n, ?_, ?_, ?_, hline⟩
      · rw [List.length_append]
        omega
      · rwa [List.take_append_of_le_length (by omega)]
      · rwa [List.take_append_of_le_length (by omega)]
    | ok u =>
      have hwhole : (raw ++ [l]).take (raw.length + 1) = raw ++ [l] := by
        rw [List.take_of_length_le]
        simp
      refine ⟨raw.length, by simp, ?_, by rwa [hwhole], ?_⟩
      · rw [List.take_left]
        exact ⟨u, hraw⟩
      · rcases numbered_concat raw l with hsame | ⟨s, hnumber, hmore⟩
        · rw [hsame, hraw] at h
          cases h
        · rw [hmore, readLines_concat, hraw] at h
          rw [line_of_addLine_error h, hnumber]

/-! ## Beginnings of tables -/

/-- Lines that some compiled text begins with. -/
def Extendable (raw : List (List Char)) : Prop :=
  ∃ source t, raw <+: Text.lines source.toList ∧ compile source = .ok t

theorem Extendable.mono {raw raw' : List (List Char)} (h : Extendable raw') (hle : raw <+: raw') :
    Extendable raw := by
  obtain ⟨source, t, hlines, ht⟩ := h
  exact ⟨source, t, hle.trans hlines, ht⟩

/-- Any lines are the lines of a text. -/
theorem exists_lines_eq {raw : List (List Char)} (h : ∀ l ∈ raw, '\n' ∉ l) :
    ∃ source : String, Text.lines source.toList = raw := by
  refine ⟨String.ofList ((raw.map (· ++ ['\r'])).flatMap (· ++ ['\n'])), ?_⟩
  have hfeed : ∀ l ∈ raw.map (· ++ ['\r']), '\n' ∉ l := by
    intro l hl
    obtain ⟨m, hm, rfl⟩ := List.mem_map.1 hl
    simpa using h m hm
  have hlines := Text.lines_flatMap_append hfeed []
  have hreturn : ∀ l : List Char, Text.withoutReturn (l ++ ['\r']) = l := by
    intro l
    unfold Text.withoutReturn
    rw [List.getLast?_concat, if_pos rfl, List.dropLast_concat]
  rw [List.append_nil, show Text.lines [] = [] from rfl, List.append_nil, List.map_map] at hlines
  rw [String.toList_ofList, hlines]
  simp [Function.comp_def, hreturn]

/-- Lines that are accepted begin a table: a closing brace makes them one, if a block is open. -/
theorem extendable_of_readLines {raw : List (List Char)} {u : Unfinished}
    (hraw : ∀ l ∈ raw, '\n' ∉ l) (h : readLines (numbered raw) = .ok u) : Extendable raw := by
  cases hopen : u.openBlock with
  | none =>
    obtain ⟨source, hlines⟩ := exists_lines_eq hraw
    refine ⟨source, { u.table with sourceHash := Digest.sha256 source },
      hlines.symm ▸ List.prefix_rfl, compile_ok_iff.2 ⟨u, ?_, hopen, rfl⟩⟩
    rw [sourceLines_eq, hlines, h]
  | some b =>
    obtain ⟨ss, last, -, hu⟩ := exists_describes h
    obtain ⟨t, hadd⟩ := hu.exists_addBlock hopen
    have hclosed : ∀ l ∈ raw ++ [['}']], '\n' ∉ l := by
      intro l hl
      rcases List.mem_append.1 hl with hl | hl
      · exact hraw l hl
      · rw [List.mem_singleton.1 hl]
        decide
    obtain ⟨source, hlines⟩ := exists_lines_eq hclosed
    refine ⟨source, { t with sourceHash := Digest.sha256 source }, ?_, ?_⟩
    · rw [hlines]
      exact List.prefix_append raw _
    · refine compile_ok_iff.2 ⟨⟨t, none⟩, ?_, rfl, rfl⟩
      rw [sourceLines_eq, hlines, numbered_concat_brace, readLines_concat, h]
      exact (addLine_blockClose_iff Grammar.spells_brace).2 ⟨b, hopen, t, hadd, rfl⟩

/-- Lines that are not accepted are not accepted as the beginning of any text. -/
theorem compile_error_of_isPrefix {raw : List (List Char)} {e : SourceError}
    (h : readLines (numbered raw) = .error e) {source : String}
    (hlines : raw <+: Text.lines source.toList) : compile source = .error e := by
  obtain ⟨more, hmore⟩ := hlines
  obtain ⟨rest, hrest⟩ := numbered_append raw more
  refine compile_error_iff.2 (.inl ?_)
  rw [sourceLines_eq, ← hmore, hrest]
  exact readLines_append_error h rest

/-- Lines that are not accepted begin no table. -/
theorem not_extendable {raw : List (List Char)} {e : SourceError}
    (h : readLines (numbered raw) = .error e) : ¬Extendable raw := by
  rintro ⟨source, t, hlines, ht⟩
  rw [compile_error_of_isPrefix h hlines] at ht
  cases ht

/-- The first line that no table has at its place is blamed, whatever is behind it. -/
theorem blamed_of_not_extendable {source : String} {e : SourceError}
    (he : compile source = .error e) {n : Nat}
    (hn : ¬Extendable ((Text.lines source.toList).take n))
    (hless : ∀ m < n, Extendable ((Text.lines source.toList).take m)) :
    e.line = n ∧ ∀ source' : String,
      (Text.lines source.toList).take n <+: Text.lines source'.toList →
        compile source' = .error e := by
  rcases compile_error_iff.1 he with hread | ⟨u, b, hread, -, -⟩
  · obtain ⟨k, -, ⟨u, hok⟩, herror, hline⟩ := exists_first_error hread
    have hbefore : Extendable ((Text.lines source.toList).take k) := by
      apply extendable_of_readLines _ hok
      intro l hl
      exact Text.not_mem_of_mem_lines (List.mem_of_mem_take hl)
    -- the line that is not accepted is neither before this one nor behind it
    have hle : n ≤ k + 1 := by
      by_contra hlt
      exact not_extendable herror (hless (k + 1) (by omega))
    have hlt : k < n := by
      by_contra hge
      exact hn (hbefore.mono (List.take_prefix_take_left (by omega)))
    obtain rfl : n = k + 1 := by omega
    exact ⟨hline, fun source' hlines => compile_error_of_isPrefix herror hlines⟩
  · have hwhole := extendable_of_readLines (fun l hl => Text.not_mem_of_mem_lines hl) hread
    exact absurd (hwhole.mono (List.take_prefix n _)) hn

/-- If every line begins some table, the last block is blamed, for not being closed. -/
theorem unterminated_of_extendable {source : String} {e : SourceError}
    (he : compile source = .error e)
    (hall : ∀ n, Extendable ((Text.lines source.toList).take n)) :
    ∃ sections text, Describes (sourceLines source.toList) sections (some text) ∧
      e = .unterminated text.line text.state := by
  rcases compile_error_iff.1 he with hread | ⟨u, b, hread, hopen, rfl⟩
  · obtain ⟨n, -, -, herror, -⟩ := exists_first_error hread
    exact absurd (hall (n + 1)) (not_extendable herror)
  · obtain ⟨ss, last, hdescribes, hu⟩ := exists_describes hread
    obtain ⟨text, rfl, rfl⟩ := hu.exists_text hopen
    exact ⟨ss, text, hdescribes, rfl⟩

/-- A text is compiled if and only if it is a table of the language, and then to the blocks that it
declares. Otherwise the blame is on the first line that no table has at its place, whatever is
behind it, or on the last block if there is no such line. That a state has two blocks is found at
the second header and never at a closing brace. -/
theorem compile_exact (source : String) :
    ((∃ t, compile source = .ok t) ↔ ∃ sections, IsTable source sections) ∧
      (∀ t sections, compile source = .ok t → IsTable source sections →
        t.blocks = blocksOf sections) ∧
      (∀ e, compile source = .error e →
        (∀ n, ¬Extendable ((Text.lines source.toList).take n) →
          (∀ m < n, Extendable ((Text.lines source.toList).take m)) →
            e.line = n ∧ ∀ source' : String,
              (Text.lines source.toList).take n <+: Text.lines source'.toList →
                compile source' = .error e) ∧
        ((∀ n, Extendable ((Text.lines source.toList).take n)) →
          ∃ sections text, Describes (sourceLines source.toList) sections (some text) ∧
            e = .unterminated text.line text.state)) ∧
      ∀ k u b, readLines ((sourceLines source.toList).take k) = .ok u → u.openBlock = some b →
        ∃ t, u.table.addBlock b = .ok t := by
  refine ⟨⟨?_, ?_⟩, ?_, ?_, ?_⟩
  · rintro ⟨t, h⟩
    exact exists_isTable h
  · rintro ⟨sections, h⟩
    obtain ⟨t, ht, -⟩ := compile_of_isTable h
    exact ⟨t, ht⟩
  · intro t sections ht h
    obtain ⟨t', ht', hblocks, -⟩ := compile_of_isTable h
    rw [ht] at ht'
    cases ht'
    exact hblocks
  · intro e he
    exact ⟨fun n hn hless => blamed_of_not_extendable he hn hless,
      fun hall => unterminated_of_extendable he hall⟩
  · intro k u b hread hopen
    obtain ⟨ss, last, -, hu⟩ := exists_describes hread
    exact hu.exists_addBlock hopen

end Table
end TaskTable
