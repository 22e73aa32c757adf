import TaskTable.Proofs.Grammar.Blame
import TaskTable.Proofs.Table.Acceptance
import TaskTable.Proofs.Text.Layout

/-!
# The columns of errors

An error with a column is about one raw line, and its column is counted from the front of that line.
For a mismatch it is the column of the point where the grammar failed, in characters. For a number
that is too large it is one more than the characters of indentation and the *bytes* before the
option, which is the column of the option only where each of these characters takes one byte.
-/

namespace TaskTable

namespace Grammar

/-! ## Options in their line -/

/-- An option of a row stands where it is placed, with as many bytes from there on. -/
theorem SpellsSettings.exists_of_mem {ss : List PlacedSetting} {s : List Char}
    (h : SpellsSettings ss s) {p : PlacedSetting} (hp : p ∈ ss) :
    ∃ before w after, s = before ++ (w ++ after) ∧ SpellsSetting p.setting w ∧
      p.bytesAhead = Text.byteLength (w ++ after) := by
  induction h with
  | nil g hg => cases hp
  | cons g w rest st ss hg hw hrest ih =>
    rcases List.mem_cons.1 hp with rfl | hp
    · exact ⟨g, w, rest, rfl, hw, rfl⟩
    · obtain ⟨before, w', after, rfl, hw', hbytes⟩ := ih hp
      exact ⟨g ++ (w ++ before), w', after, by simp, hw', hbytes⟩

/-- An option of a transition stands where it is placed in the text of the line. -/
theorem SpellsLine.exists_of_mem {value target : String} {ss : List PlacedSetting} {s : List Char}
    (h : SpellsLine (.transition value target ss) s) {p : PlacedSetting} (hp : p ∈ ss) :
    ∃ before w after, s = before ++ (w ++ after) ∧ SpellsSetting p.setting w ∧
      p.bytesAhead = Text.byteLength (w ++ after) := by
  obtain ⟨g, w, hg, hspells, rfl⟩ := h
  cases hspells with
  | transition value target ss w g' rest hw hg' htarget hrest hgap hend =>
    obtain ⟨before, w', after, rfl, hw', hbytes⟩ := hrest.exists_of_mem hp
    exact ⟨g ++ (w ++ (g' ++ (target.toList ++ before))), w', after, by simp, hw', hbytes⟩

end Grammar

namespace Table

open Grammar (PlacedSetting Setting SpellsSetting SpellsLine tableLine)

/-! ## Bytes -/

theorem byteLength_append (s s' : List Char) :
    Text.byteLength (s ++ s') = Text.byteLength s + Text.byteLength s' := by
  induction s with
  | nil => simp [Text.byteLength]
  | cons c cs ih =>
    show c.utf8Size + Text.byteLength (cs ++ s') = c.utf8Size + Text.byteLength cs + _
    omega

theorem length_le_byteLength (s : List Char) : s.length ≤ Text.byteLength s := by
  induction s with
  | nil => exact Nat.le_refl _
  | cons c cs ih =>
    have hpos := c.utf8Size_pos
    show cs.length + 1 ≤ c.utf8Size + Text.byteLength cs
    omega

/-- A text has as many bytes as characters if each of these takes one. -/
theorem byteLength_eq_length_iff {s : List Char} :
    Text.byteLength s = s.length ↔ ∀ c ∈ s, c.utf8Size = 1 := by
  induction s with
  | nil => simp [Text.byteLength]
  | cons c cs ih =>
    have hpos := c.utf8Size_pos
    have hle := length_le_byteLength cs
    have hcons : Text.byteLength (c :: cs) = c.utf8Size + Text.byteLength cs := rfl
    rw [List.forall_mem_cons, ← ih, List.length_cons]
    constructor
    · intro h
      omega
    · rintro ⟨h, h'⟩
      omega

/-! ## Lines as they stand in the source -/

/-- A line stands in its raw line behind its indentation. -/
theorem exists_around_content (raw : List Char) :
    ∃ indent after, raw = indent ++ (Text.content raw ++ after) ∧
      indent.length = Text.indent (Text.stripComment raw) := by
  obtain ⟨remark, -, hremark⟩ := Text.exists_stripCommentFrom_append none raw
  obtain ⟨blanks, hblanks⟩ := Text.trimEnd_isPrefix (Text.trimStart (Text.stripComment raw))
  refine ⟨(Text.stripComment raw).takeWhile Text.isBlank, blanks ++ remark, ?_, rfl⟩
  calc raw = Text.stripComment raw ++ remark := hremark
    _ = ((Text.stripComment raw).takeWhile Text.isBlank ++
          Text.trimStart (Text.stripComment raw)) ++ remark := by
      rw [Text.trimStart, List.takeWhile_append_dropWhile]
    _ = ((Text.stripComment raw).takeWhile Text.isBlank ++ (Text.content raw ++ blanks)) ++
          remark := by
      rw [← hblanks]
      rfl
    _ = _ := by simp only [List.append_assoc]

/-- A line that counts is the content of the raw line with its number. -/
theorem exists_raw_of_mem {source : List Char} {l : SourceLine} (h : l ∈ sourceLines source) :
    0 < l.number ∧ ∃ raw, (Text.lines source)[l.number - 1]? = some raw ∧
      l.indent = Text.indent (Text.stripComment raw) ∧ l.text = Text.content raw := by
  obtain ⟨⟨raw, i⟩, hmem, hline⟩ := List.mem_filterMap.1 h
  have hraw := List.mk_mem_zipIdx_iff_getElem?.1 hmem
  dsimp only at hline
  split at hline
  · cases hline
  · cases hline
    exact ⟨Nat.succ_pos i, raw, hraw, rfl, rfl⟩

/-- The parts of a raw line around a point of its text: the indentation, the text before and behind
the point, and the blanks and the comment at the end. -/
structure SplitAt (raw indent before rest after : List Char) : Prop where
  parts : raw = indent ++ (before ++ (rest ++ after))
  content : Text.content raw = before ++ rest
  indentation : indent.length = Text.indent (Text.stripComment raw)

/-- A point of a line's text is one of its raw line. -/
theorem exists_splitAt {raw text before rest : List Char} {n : Nat}
    (hindent : n = Text.indent (Text.stripComment raw)) (htext : text = Text.content raw)
    (hpoint : text = before ++ rest) :
    ∃ indent after, SplitAt raw indent before rest after ∧ indent.length = n := by
  obtain ⟨indent, after, hsplit, hlength⟩ := exists_around_content raw
  have hcontent : Text.content raw = before ++ rest := by rw [← htext, hpoint]
  refine ⟨indent, after, ⟨?_, hcontent, hlength⟩, by rw [hlength, hindent]⟩
  rw [hcontent, List.append_assoc] at hsplit
  exact hsplit

/-- A mismatch is at a point of the text. -/
theorem exists_point_of_parse {text : List Char} {b : Grammar.Blame Grammar.Rule}
    (h : tableLine.parse text = .error b) :
    ∃ before rest, text = before ++ rest ∧ b.rest = rest.length := by
  have hle := Grammar.rest_le_of_parse_error Grammar.deepens_tableLine h
  refine ⟨text.take (text.length - b.rest), text.drop (text.length - b.rest),
    (List.take_append_drop _ _).symm, ?_⟩
  rw [List.length_drop]
  omega

/-- The column `c` is that of a mismatch in the text of a line. -/
def IsMismatch (indent before rest : List Char) (c : Nat) (e : SourceError) : Prop :=
  ∃ b, tableLine.parse (before ++ rest) = .error b ∧ b.rest = rest.length ∧
    e = .unexpected e.line c b.rules ∧ c = (indent ++ before).length + 1

/-- The column `c` is given to an option whose number is too large. It counts the bytes between the
indentation and the option, which are characters where each takes one byte. -/
def IsLargeNumber (indent before rest : List Char) (c : Nat) (e : SourceError) : Prop :=
  ∃ digits option more, rest = option ++ more ∧
    (SpellsSetting (.wait digits) option ∨ SpellsSetting (.max digits) option) ∧
    ¬ Number.ofDigits digits < Number.twoPow 32 ∧
    e = .numberTooLarge e.line c (String.ofList digits) ∧
    c = indent.length + Text.byteLength before + 1 ∧
    (c = (indent ++ before).length + 1 ↔ ∀ d ∈ before, d.utf8Size = 1)

/-- An option with a number stands in the text of its line where it is placed. -/
theorem exists_point_of_number {text : List Char} {value target : String}
    {settings : List PlacedSetting} {p : PlacedSetting} {digits : List Char}
    (hspells : SpellsLine (.transition value target settings) text) (hp : p ∈ settings)
    (hdigits : digits? p.setting = some digits) :
    ∃ before option more, text = before ++ (option ++ more) ∧
      (SpellsSetting (.wait digits) option ∨ SpellsSetting (.max digits) option) ∧
      Text.byteLength text - p.bytesAhead = Text.byteLength before := by
  obtain ⟨before, option, more, rfl, hoption, hbytes⟩ := hspells.exists_of_mem hp
  refine ⟨before, option, more, rfl, ?_, ?_⟩
  · cases hset : p.setting with
    | wait digits' =>
      rw [hset] at hdigits hoption
      cases hdigits
      exact .inl hoption
    | max digits' =>
      rw [hset] at hdigits hoption
      cases hdigits
      exact .inr hoption
    | exec on =>
      rw [hset] at hdigits
      cases hdigits
  · rw [byteLength_append, hbytes]
    omega

/-- An error with a column is about a raw line of its source, and points to where the text of this
line does not match, or to an option whose number is too large. -/
theorem error_column {source : String} {e : SourceError} {c : Nat}
    (h : compile source = .error e) (hc : e.column? = some c) :
    ∃ raw indent before rest after, 0 < e.line ∧
      (Text.lines source.toList)[e.line - 1]? = some raw ∧
      SplitAt raw indent before rest after ∧
      (IsMismatch indent before rest c e ∧ c ≤ raw.length + 1 ∨
        IsLargeNumber indent before rest c e) := by
  rcases compile_error_iff.1 h with hread | ⟨u, b, -, -, rfl⟩
  · obtain ⟨l, hl, u, hfail⟩ := exists_of_foldlM_error hread
    obtain ⟨hpos, raw, hraw, hindent, htext⟩ := exists_raw_of_mem hl
    cases blames_of_addLine_error hfail with
    | mismatch b hparse =>
      obtain ⟨before, rest, hpoint, hrest⟩ := exists_point_of_parse hparse
      obtain ⟨indent, after, hsplit, hlength⟩ := exists_splitAt hindent htext hpoint
      have hcolumn : l.indent + (l.text.length - b.rest) + 1 = (indent ++ before).length + 1 := by
        rw [hpoint, hrest, List.length_append, List.length_append, hlength]
        omega
      have hend : (indent ++ before).length ≤ raw.length := by
        rw [hsplit.parts]
        simp only [List.length_append]
        omega
      rw [hpoint] at hparse
      cases hc
      refine ⟨raw, indent, before, rest, after, hpos, hraw, hsplit, .inl ⟨?_, by omega⟩⟩
      exact ⟨b, hparse, hrest, rfl, hcolumn⟩
    | number value target settings p digits hspells hp hdigits hlarge =>
      obtain ⟨before, option, more, hpoint, hoption, hbytes⟩ :=
        exists_point_of_number hspells hp hdigits
      obtain ⟨indent, after, hsplit, hlength⟩ := exists_splitAt hindent htext hpoint
      have hlarge' : ¬ Number.ofDigits digits < Number.twoPow 32 := by
        intro hlt
        rw [word32?_eq_some_iff.2 ⟨hlt, rfl⟩] at hlarge
        cases hlarge
      cases hc
      rw [hbytes, ← hlength]
      refine ⟨raw, indent, before, option ++ more, after, hpos, hraw, hsplit, .inr ?_⟩
      refine ⟨digits, option, more, rfl, hoption, hlarge', rfl, rfl, ?_⟩
      rw [← byteLength_eq_length_iff, List.length_append]
      omega
    | structural e hline hcolumn =>
      rw [hc] at hcolumn
      cases hcolumn
  · cases hc

/-! ## A number behind characters of several bytes -/

/-- A table with a number that is too large behind a tab and ASCII characters. -/
def asciiSource : String := "a \x7b\n\tb c max=4294967296\n\x7d\n"

/-- A table with a number that is too large behind characters of four bytes each. -/
def wideSource : String := "a \x7b\n😀😀😀😀😀 b max=4294967296\n\x7d\n"

/-- Behind ASCII characters the column is that of the option. -/
theorem error_column_asciiSource :
    compile asciiSource = .error (.numberTooLarge 2 6 "4294967296") ∧
      ∃ raw indent before rest after,
        (Text.lines asciiSource.toList)[1]? = some raw ∧ SplitAt raw indent before rest after ∧
        IsLargeNumber indent before rest 6 (.numberTooLarge 2 6 "4294967296") := by
  have herror : compile asciiSource = .error (.numberTooLarge 2 6 "4294967296") := rfl
  obtain ⟨raw, indent, before, rest, after, -, hraw, hsplit, hwhere⟩ := error_column herror rfl
  refine ⟨herror, raw, indent, before, rest, after, hraw, hsplit, ?_⟩
  rcases hwhere with ⟨⟨b, -, -, hkind, -⟩, -⟩ | hlarge
  · cases hkind
  · exact hlarge

/-- Behind characters of four bytes each the column lies beyond the end of the line, and not in
front of the option. -/
theorem column_beyond_line :
    compile wideSource = .error (.numberTooLarge 2 24 "4294967296") ∧
      (Text.lines wideSource.toList)[1]? =
        some ("😀😀😀😀😀 b ".toList ++ "max=4294967296".toList) ∧
      "😀😀😀😀😀 b ".toList.length = 8 ∧
      ("😀😀😀😀😀 b ".toList ++ "max=4294967296".toList).length = 22 :=
  ⟨rfl, by decide, rfl, rfl⟩

end Table
end TaskTable
