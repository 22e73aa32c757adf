import TaskTable.Proofs.Grammar.Blame
import TaskTable.Proofs.Grammar.Entries

/-!
# Verification scripts as they are read

The reader of verification scripts takes exactly the texts that are rows of entries, each for its
entries (`parse_verifyScript_iff`). A text that breaks off is refused, and what is blamed is the
point where it does (`breaksOff_of_parse`): the entries before it blame nothing beyond their ends,
and the end of the text is missed no further in than where the entry began that is not complete.
-/

namespace TaskTable
namespace Grammar

open Reader

variable {s rest : List Char} {e : String × String} {es : List (String × String)}

/-! ## The blame of one entry -/

/-- The parts of an entry. -/
def entryParts : TextReader (String × String) := do
  let state ← stateName
  gap
  let v ← value
  return (state, v)

theorem verifyEntry_eq : verifyEntry = named .verifyEntry entryParts := rfl

/-- Behind a state, what an entry blames is what its value blames. -/
theorem blame_entryParts {t u : List Char} {state : String}
    (h : stateName.read t = some (state, u)) (b : Blame Rule) :
    entryParts.blame t b = value.blame (u.dropWhile isGap) (stateName.blame t b) := by
  unfold entryParts
  rw [blame_bind, h]
  show (value >>= fun v => pure (state, v) : TextReader (String × String)).blame _ _ = _
  rw [blame_bind]
  split <;> rfl

/-- Nothing is blamed further in than where an entry that is read ends. -/
theorem SpellsEntry.rest_blame (h : SpellsEntry e s rest) (b : Blame Rule) :
    min rest.length b.rest ≤ (gapEntry.blame s b).rest := by
  cases h with
  | mk g g' w rest state value hg hstate hg' hw hend hrest =>
    have hfront := stops_gap_of_isName hstate (g' ++ (w ++ rest))
    have hname := read_stateName hstate hend
    have hread : entryParts.read (state.toList ++ (g' ++ (w ++ rest))) =
        some ((state, value), rest) := by
      unfold entryParts
      rw [read_bind, hname, Option.bind_some, read_bind, read_gap hg' (hw.stops_gap rest),
        Option.bind_some, read_bind, read_value_of_spells hw hrest]
      rfl
    have hstateBlame := shallow_stateName (state.toList ++ (g' ++ (w ++ rest))) b
    have hvalueBlame := shallow_value (w ++ rest)
      (stateName.blame (state.toList ++ (g' ++ (w ++ rest))) b)
    unfold gapEntry
    rw [blame_gap_bind, dropWhile_of_stops hg hfront, verifyEntry_eq, blame_named_of_some hread,
      blame_entryParts hname, dropWhile_of_stops hg' (hw.stops_gap rest)]
    simp only [List.length_append] at hstateBlame hvalueBlame
    omega

/-- Reading has stopped with `r` left, before the end of the text, and the point with `rest` unread
is blamed, which lies there or further in. -/
structure StoppedAt (rest r : List Char) (b : Blame Rule) : Prop where
  behind : rest.length ≤ (r.dropWhile isGap).length
  before_end : r.dropWhile isGap ≠ []
  blamed : b.rest = rest.length

/-- It does not matter whether the gap behind the last entry is read. -/
theorem StoppedAt.dropWhile {r : List Char} {b : Blame Rule} (h : StoppedAt rest r b) :
    StoppedAt rest (r.dropWhile isGap) b := by
  have hagain : (r.dropWhile isGap).dropWhile isGap = r.dropWhile isGap :=
    dropWhile_eq_self_of_stops (stops_dropWhile isGap r)
  exact ⟨by rw [hagain]; exact h.behind, by rw [hagain]; exact h.before_end, h.blamed⟩

theorem read_stateName_of_stops (h : Stops isNameChar s) : stateName.read s = none := by
  rw [stateName, ident, read_named, read_named, read_bind, read_run1_of_stops h]
  rfl

/-- An entry that is not complete is not read, and fails where its state or its value is missing. -/
theorem Incomplete.stops (h : Incomplete s rest) {b : Blame Rule} (hb : rest.length ≤ b.rest) :
    gapEntry.read s = none ∧ StoppedAt rest s (gapEntry.blame s b) := by
  cases h with
  | state g rest hg hne hgap hname =>
    have hstate := read_stateName_of_stops hname
    have hparts : entryParts.read rest = none := by
      rw [entryParts, read_bind, hstate]
      rfl
    have hblame : (entryParts.blame rest b).rest = min rest.length b.rest := by
      rw [entryParts, blame_bind, hstate]
      exact rest_blame_of_none deepens_stateName shallow_stateName hstate b
    have hleft : (g ++ rest).dropWhile isGap = rest := dropWhile_of_stops hg hgap
    refine ⟨?_, Nat.le_of_eq (by rw [hleft]), by rwa [hleft], ?_⟩
    · rw [gapEntry, read_bind, read_gap hg hgap]
      exact hparts
    · rw [gapEntry, blame_gap_bind, hleft, verifyEntry_eq, rest_blame_named_of_none hparts, hblame]
      omega
  | value g g' rest state hg hstate hg' hend hgap hvalue =>
    have hfront := stops_gap_of_isName hstate (g' ++ rest)
    have hname := read_stateName hstate hend
    have hnone := noValue_iff.1 hvalue
    have hparts : entryParts.read (state.toList ++ (g' ++ rest)) = none := by
      rw [entryParts, read_bind, hname, Option.bind_some, read_bind, read_gap hg' hgap,
        Option.bind_some, read_bind, hnone]
      rfl
    have hleft : (g ++ (state.toList ++ (g' ++ rest))).dropWhile isGap =
        state.toList ++ (g' ++ rest) := dropWhile_of_stops hg hfront
    have hlength : rest.length ≤ (state.toList ++ (g' ++ rest)).length := by
      simp only [List.length_append]
      omega
    refine ⟨?_, by rwa [hleft], by simp [hleft, hstate.1], ?_⟩
    · rw [gapEntry, read_bind, read_gap hg hfront]
      exact hparts
    · have hstateBlame := shallow_stateName (state.toList ++ (g' ++ rest)) b
      have hvalueBlame : (Grammar.value.blame rest (stateName.blame _ b)).rest = _ :=
        rest_blame_of_none deepens_value shallow_value hnone
          (stateName.blame (state.toList ++ (g' ++ rest)) b)
      rw [gapEntry, blame_gap_bind, hleft, verifyEntry_eq, rest_blame_named_of_none hparts,
        blame_entryParts hname, dropWhile_of_stops hg' hgap]
      omega

/-! ## Rows of entries -/

/-- Nothing is an entry in a gap. -/
theorem read_gapEntry_of_isGap {g : List Char} (hg : IsGap g) : gapEntry.read g = none := by
  have hgap := read_gap hg (stops_nil isGap)
  rw [List.append_nil] at hgap
  rw [gapEntry, read_bind, hgap]
  rfl

/-- A row of entries is read one by one, up to the gap at its end. -/
theorem SpellsEntries.repeatRead (h : SpellsEntries es s) :
    ∀ n, s.length < n → ∃ g, IsGap g ∧ repeatRead gapEntry n s = (es, g) := by
  induction h with
  | nil g hg =>
    intro n hn
    obtain ⟨n, rfl⟩ := Nat.exists_eq_succ_of_ne_zero (Nat.ne_zero_of_lt hn)
    refine ⟨g, hg, ?_⟩
    rw [Reader.repeatRead, read_gapEntry_of_isGap hg]
  | cons e es s rest he hes ih =>
    intro n hn
    obtain ⟨n, rfl⟩ := Nat.exists_eq_succ_of_ne_zero (Nat.ne_zero_of_lt hn)
    have hlength := he.length_lt
    obtain ⟨g, hg, hrepeat⟩ := ih n (by omega)
    refine ⟨g, hg, ?_⟩
    rw [Reader.repeatRead, read_gapEntry_iff.2 he]
    dsimp only
    rw [hrepeat]

/-- A text that breaks off is read entry by entry, up to where it does. -/
theorem BreaksOff.repeats (h : BreaksOff s rest) :
    ∀ n b, s.length < n → rest.length ≤ b.rest →
      StoppedAt rest (Reader.repeatRead gapEntry n s).2 (repeatBlame gapEntry n s b) := by
  induction h with
  | here s rest h =>
    intro n b hn hb
    obtain ⟨n, rfl⟩ := Nat.exists_eq_succ_of_ne_zero (Nat.ne_zero_of_lt hn)
    obtain ⟨hread, hstopped⟩ := h.stops hb
    rw [Reader.repeatRead, repeatBlame, hread]
    exact hstopped
  | entry e s more rest he hmore ih =>
    intro n b hn hb
    obtain ⟨n, rfl⟩ := Nat.exists_eq_succ_of_ne_zero (Nat.ne_zero_of_lt hn)
    have hlength := he.length_lt
    have hle := hmore.length_le
    have hblame := he.rest_blame b
    rw [Reader.repeatRead, repeatBlame, read_gapEntry_iff.2 he]
    exact ih n _ (by omega) (by omega)

/-! ## Whole scripts -/

/-- The parts of a script. -/
def scriptParts : TextReader (List (String × String)) := do
  gap
  let entries ← spaced verifyEntry
  gap
  endOfInput
  return entries

theorem verifyScript_eq : verifyScript = named .verifyScript scriptParts := rfl

/-- Where no entry is read, a row is empty, and blames what the entry does. -/
theorem spaced_of_none (h : gapEntry.read s = none) (b : Blame Rule) :
    (spaced verifyEntry).read (s.dropWhile isGap) = some ([], s.dropWhile isGap) ∧
      (spaced verifyEntry).blame (s.dropWhile isGap) b = gapEntry.blame s b := by
  have hentry : verifyEntry.read (s.dropWhile isGap) = none := h
  constructor
  · exact read_spaced_of_none hentry
  · unfold spaced
    rw [blame_bind, read_opt, hentry]
    rfl

/-- A row goes on behind its first entry with a gap before each. -/
theorem spaced_of_some (h : gapEntry.read s = some (e, rest)) (b : Blame Rule) :
    (spaced verifyEntry).read (s.dropWhile isGap) =
        some (e :: (Reader.repeatRead gapEntry (rest.length + 1) rest).1,
          (Reader.repeatRead gapEntry (rest.length + 1) rest).2) ∧
      (spaced verifyEntry).blame (s.dropWhile isGap) b =
        repeatBlame gapEntry (rest.length + 1) rest (gapEntry.blame s b) := by
  have hentry : verifyEntry.read (s.dropWhile isGap) = some (e, rest) := h
  constructor
  · unfold spaced
    rw [read_bind, read_opt, hentry]
    rfl
  · unfold spaced
    rw [blame_bind, read_opt, hentry]
    rfl

/-- A row of entries is read as a whole script. -/
theorem SpellsEntries.parse (h : SpellsEntries es s) : verifyScript.parse s = .ok es := by
  suffices hrow : ∃ g, IsGap g ∧ (spaced verifyEntry).read (s.dropWhile isGap) = some (es, g) by
    obtain ⟨g, hg, hrow⟩ := hrow
    have hgap := read_gap hg (stops_nil isGap)
    rw [List.append_nil] at hgap
    have hread : verifyScript.read s = some (es, []) := by
      rw [verifyScript_eq, read_named, scriptParts, read_bind, read_gap_eq, Option.bind_some,
        read_bind, hrow, Option.bind_some, read_bind, hgap]
      rfl
    unfold Reader.parse
    rw [hread]
  cases h with
  | nil g hg =>
    obtain ⟨hread, -⟩ := spaced_of_none (read_gapEntry_of_isGap hg) ⟨0, []⟩
    refine ⟨_, ?_, hread⟩
    intro c hc
    exact hg c ((List.dropWhile_sublist isGap).subset hc)
  | cons e es s rest he hes =>
    obtain ⟨g, hg, hrepeat⟩ := hes.repeatRead _ (Nat.lt_succ_self _)
    obtain ⟨hread, -⟩ := spaced_of_some (read_gapEntry_iff.2 he) ⟨0, []⟩
    rw [hrepeat] at hread
    exact ⟨g, hg, hread⟩

/-- A row in front of a break is read up to there. -/
theorem BreaksOff.read_row (h : BreaksOff s rest) {b : Blame Rule} (hb : rest.length ≤ b.rest) :
    ∃ es r, (spaced verifyEntry).read (s.dropWhile isGap) = some (es, r) ∧
      StoppedAt rest r ((spaced verifyEntry).blame (s.dropWhile isGap) b) := by
  cases h with
  | here s rest h =>
    obtain ⟨hnone, hstopped⟩ := h.stops hb
    obtain ⟨hread, hblame⟩ := spaced_of_none hnone b
    refine ⟨[], _, hread, ?_⟩
    rw [hblame]
    exact hstopped.dropWhile
  | entry e s more rest he hmore =>
    obtain ⟨hread, hblame⟩ := spaced_of_some (read_gapEntry_iff.2 he) b
    have hle := hmore.length_le
    have hafter := he.rest_blame b
    refine ⟨_, _, hread, ?_⟩
    rw [hblame]
    exact hmore.repeats _ _ (Nat.lt_succ_self _) (by omega)

/-- A text that breaks off is no script, and the point of the break is blamed. -/
theorem BreaksOff.parse (h : BreaksOff s rest) :
    ∃ b, verifyScript.parse s = .error b ∧ b.rest = rest.length := by
  have hle := h.length_le
  obtain ⟨es, r, hrow, hstopped⟩ := h.read_row (b := ⟨s.length, []⟩) hle
  have hbehind := hstopped.behind
  have hblamed := hstopped.blamed
  have hend : endOfInput.read (r.dropWhile isGap) = none := by
    rw [Option.eq_none_iff_forall_ne_some]
    rintro ⟨u, more⟩ hread
    exact hstopped.before_end (read_endOfInput_iff.1 hread).1
  have hread : scriptParts.read s = none := by
    rw [scriptParts, read_bind, read_gap_eq, Option.bind_some, read_bind, hrow, Option.bind_some,
      read_bind, read_gap_eq, Option.bind_some, read_bind, hend]
    rfl
  have hblame : scriptParts.blame s ⟨s.length, []⟩ = endOfInput.blame (r.dropWhile isGap)
      ((spaced verifyEntry).blame (s.dropWhile isGap) ⟨s.length, []⟩) := by
    rw [scriptParts, blame_gap_bind, blame_bind, hrow]
    dsimp only
    rw [blame_gap_bind, blame_bind, hend]
  -- the end of the text is missed behind the break, or there
  have hlast : (scriptParts.blame s ⟨s.length, []⟩).rest = rest.length := by
    have hhere : (endOfInput.blame (r.dropWhile isGap) _).rest = _ :=
      rest_blame_of_none deepens_endOfInput shallow_endOfInput hend
        ((spaced verifyEntry).blame (s.dropWhile isGap) ⟨s.length, []⟩)
    rw [hblame, hhere]
    omega
  refine ⟨verifyScript.blame s ⟨s.length, []⟩, ?_, ?_⟩
  · unfold Reader.parse
    rw [verifyScript_eq, read_named, hread]
  · rw [verifyScript_eq, rest_blame_named_of_none hread]
    omega

/-- A text is taken for a script just where it is a row of entries, and for these. -/
theorem parse_verifyScript_iff : verifyScript.parse s = .ok es ↔ SpellsEntries es s := by
  constructor
  · intro h
    rcases spells_or_breaksOff s with ⟨es', hes⟩ | ⟨rest, hbreak⟩
    · rw [hes.parse] at h
      cases h
      exact hes
    · obtain ⟨b, hparse, -⟩ := hbreak.parse
      rw [hparse] at h
      cases h
  · exact SpellsEntries.parse

/-- A text that is refused breaks off, and is blamed there. -/
theorem breaksOff_of_parse {b : Blame Rule} (h : verifyScript.parse s = .error b) :
    ∃ rest, BreaksOff s rest ∧ b.rest = rest.length := by
  rcases spells_or_breaksOff s with ⟨es, hes⟩ | ⟨rest, hbreak⟩
  · rw [hes.parse] at h
    cases h
  · obtain ⟨b', hparse, hrest⟩ := hbreak.parse
    rw [hparse] at h
    cases h
    exact ⟨rest, hbreak, hrest⟩

end Grammar
end TaskTable
