import TaskTable.Proofs.Grammar.Exact
import TaskTable.Proofs.Recording.Scripts
import TaskTable.Proofs.Text.Uncommented

/-!
# Verification scripts with values on several lines

A quoted value of a verification script may run on over line ends. What a script gives can be
printed and read again all the same (`readEntries_of_given`): a value lacks the quote it was read
between, and no comment begins on a later line of it, since comments were off before it was read.
What is lost is a carriage return in front of a line feed, once for each reading.
-/

namespace TaskTable
namespace Script

open Grammar Reader
open Text (Uncommented feedsOnly)

/-- An entry as a verification script can give it. -/
structure Given (e : String × String) : Prop where
  legible : Legible e
  inert : ∃ q, Uncommented q e.2.toList

/-! ## What a script gives -/

section Reading

variable {α : Type} {p : TextReader α} {P : List Char → Prop} {Q : α → Prop}

/-- All forms of a repetition have what one form has, if the text stays of its kind. -/
theorem forall_of_repeatRead (hp : ∀ s a rest, P s → p.read s = some (a, rest) → Q a ∧ P rest)
    {n : Nat} {s rest : List Char} {as : List α} (hs : P s)
    (h : repeatRead p n s = (as, rest)) : ∀ a ∈ as, Q a := by
  induction n generalizing s as with
  | zero => cases h; nofun
  | succ n ih =>
    rw [repeatRead] at h
    cases hread : p.read s with
    | none => rw [hread] at h; cases h; nofun
    | some r =>
      obtain ⟨a, s'⟩ := r
      obtain ⟨ha, hs'⟩ := hp s a s' hs hread
      rw [hread] at h
      cases h
      exact List.forall_mem_cons.2 ⟨ha, ih hs' rfl⟩

/-- All forms of a row have what one form has, if the text stays of its kind. -/
theorem forall_of_spaced (hp : ∀ s a rest, P s → p.read s = some (a, rest) → Q a ∧ P rest)
    (hgap : ∀ g s, P (g ++ s) → P s) {s rest : List Char} {as : List α} (hs : P s)
    (h : (spaced p).read s = some (as, rest)) : ∀ a ∈ as, Q a := by
  have hnext : ∀ s a rest, P s → (do gap; p : TextReader α).read s = some (a, rest) →
      Q a ∧ P rest := by
    intro s a rest hs hread
    obtain ⟨_, s', hgapped, hform⟩ := read_bind_iff.1 hread
    obtain ⟨g, -, rfl, -⟩ := read_gap_iff.1 hgapped
    exact hp s' a rest (hgap g s' hs) hform
  unfold spaced at h
  obtain ⟨first, s', hfirst, hrest⟩ := read_bind_iff.1 h
  rcases read_opt_iff.1 hfirst with ⟨a, rfl, hread⟩ | ⟨rfl, -, -⟩
  · obtain ⟨ha, hs'⟩ := hp s a s' hs hread
    obtain ⟨as', s'', hmany, hpure⟩ := read_bind_iff.1 hrest
    cases hpure
    exact List.forall_mem_cons.2 ⟨ha, forall_of_repeatRead hnext hs' (Option.some.inj hmany)⟩
  · cases hrest
    nofun

end Reading

/-- A value has no comments where its text has none. -/
theorem uncommented_of_spells {v : String} {w : List Char} (h : SpellsValue v w) {q : Option Char}
    (hw : Uncommented q w) : ∃ q, Uncommented q v.toList := by
  cases h with
  | single v h | double v h =>
    rw [String.toList_ofList]
    exact ⟨_, (Text.uncommented_append.1 hw.2).1⟩
  | bare v hne h =>
    rw [String.toList_ofList]
    exact ⟨q, hw⟩

/-- An entry that is read off a text without comments is one that a script can give, and no comment
begins in what stands behind it. -/
theorem given_of_read {s rest : List Char} {e : String × String} (hs : ∃ q, Uncommented q s)
    (h : verifyEntry.read s = some (e, rest)) : Given e ∧ ∃ q, Uncommented q rest := by
  obtain ⟨q, hs⟩ := hs
  unfold verifyEntry at h
  rw [read_named] at h
  obtain ⟨name, s₁, hstate, h₁⟩ := read_bind_iff.1 h
  obtain ⟨_, s₂, hgap, h₂⟩ := read_bind_iff.1 h₁
  obtain ⟨v, s₃, hvalue, hpure⟩ := read_bind_iff.1 h₂
  cases hpure
  obtain ⟨rfl, hname, -⟩ := read_ident_iff.1 hstate
  obtain ⟨g, -, rfl, -⟩ := read_gap_iff.1 hgap
  obtain ⟨w, hw, rfl, -⟩ := read_value_iff.1 hvalue
  obtain ⟨hinert, hrest⟩ :=
    Text.uncommented_append.1 (Text.uncommented_append.1 (Text.uncommented_append.1 hs).2).2
  exact ⟨⟨⟨hname, hw.enclosable⟩, uncommented_of_spells hw hinert⟩, _, hrest⟩

/-- What a verification script gives is what one can give. -/
theorem given_of_readEntries {source : String} {es : List (String × String)}
    (h : readEntries source = .ok es) : ∀ e ∈ es, Given e := by
  have hsource := Text.uncommented_stripComments source.toList
  unfold readEntries readAll at h
  dsimp only at h
  generalize stripComments source.toList = text at h hsource
  unfold Reader.parse at h
  cases hread : verifyScript.read text with
  | none => rw [hread] at h; cases h
  | some r =>
    obtain ⟨es', rest⟩ := r
    rw [hread] at h
    cases h
    unfold verifyScript at hread
    rw [read_named] at hread
    obtain ⟨_, s₁, hgap, hread⟩ := read_bind_iff.1 hread
    obtain ⟨es', s₂, hspaced, hread⟩ := read_bind_iff.1 hread
    obtain ⟨_, s₃, -, hread⟩ := read_bind_iff.1 hread
    obtain ⟨_, s₄, -, hpure⟩ := read_bind_iff.1 hread
    cases hpure
    obtain ⟨g, -, rfl, -⟩ := read_gap_iff.1 hgap
    have hsuffix : ∀ g s, (∃ q, Uncommented q (g ++ s)) → ∃ q, Uncommented q s :=
      fun g s ⟨_, h⟩ => ⟨_, (Text.uncommented_append.1 h).2⟩
    exact forall_of_spaced (fun s e rest => given_of_read) hsuffix
      (hsuffix g s₁ ⟨none, hsource⟩) hspaced

/-! ## Printing it again -/

/-- An entry as it is read back: the line ends of its value are line feeds alone. -/
def settled (e : String × String) : String × String :=
  (e.1, String.ofList (feedsOnly e.2.toList))

theorem Legible.settled {e : String × String} (h : Legible e) : Legible (Script.settled e) := by
  refine ⟨h.1, ?_⟩
  unfold Script.settled Enclosable
  rw [String.toList_ofList, Text.mem_feedsOnly (by decide), Text.mem_feedsOnly (by decide)]
  exact h.2

theorem isBare_of_feed {v : List Char} (h : '\n' ∈ v) : Text.isBare v = false := by
  refine Bool.eq_false_iff.2 fun hbare => ?_
  have hblank := ((Text.bare_parts hbare).2 '\n' h).1
  revert hblank
  decide

theorem isBare_feedsOnly (v : List Char) : Text.isBare (feedsOnly v) = Text.isBare v := by
  by_cases hfeed : '\n' ∈ v
  · rw [isBare_of_feed hfeed, isBare_of_feed ((Text.mem_feedsOnly (by decide) v).2 hfeed)]
  · rw [Text.feedsOnly_of_not_mem hfeed]

/-- The same quotes are put around a value whose line ends are line feeds alone. -/
theorem quoteChars_feedsOnly (v : List Char) :
    Text.quoteChars (feedsOnly v) = feedsOnly (Text.quoteChars v) := by
  have hsingle : (feedsOnly v).contains '\'' = v.contains '\'' := by
    rw [Bool.eq_iff_iff, List.contains_iff_mem, List.contains_iff_mem,
      Text.mem_feedsOnly (by decide)]
  unfold Text.quoteChars
  rw [isBare_feedsOnly, hsingle]
  split
  · rfl
  · split <;>
      rw [List.cons_append, List.cons_append, Text.feedsOnly_cons_of_ne (by decide),
        Text.feedsOnly_concat v (by decide)]

theorem entryLine_settled {e : String × String} (h : IsName e.1) :
    entryLine (settled e) = feedsOnly (entryLine e) := by
  have hname : '\r' ∉ e.1.toList := by
    intro hmem
    have hchar := h.2 _ hmem
    revert hchar
    decide
  rw [entryLine, entryLine, Text.feedsOnly_append_of_not_mem hname,
    Text.feedsOnly_cons_of_ne (by decide), ← quoteChars_feedsOnly, settled, String.toList_ofList]

theorem isParagraph_entryLine {e : String × String} (h : Legible e) :
    Text.IsParagraph (entryLine e) := by
  have hlast : (entryLine e).getLast? = (Text.quoteChars e.2.toList).getLast? := by
    obtain ⟨c, cs, hquoted⟩ := List.exists_cons_of_ne_nil (Text.quoteChars_ne_nil e.2.toList)
    rw [entryLine, hquoted, List.getLast?_append, List.getLast?_cons_cons,
      List.getLast?_cons, Option.some_or]
  have hblank : ∀ c, (entryLine e).getLast? = some c → Text.isBlank c = false :=
    fun c hc => Text.not_isBlank_quoteChars h.2 (.inr (hlast ▸ hc))
  refine ⟨by simp [entryLine], fun hc => ?_, fun hc => ?_⟩
  · have hfeed := hblank _ hc
    revert hfeed
    decide
  · have hreturn := hblank _ hc
    revert hreturn
    decide

/-- No comment begins in an entry that a script can give, nor does the entry hide one behind it. -/
theorem uncommented_entryLine {e : String × String} (h : Given e) {rest : List Char}
    (hrest : Uncommented none rest) : Uncommented none (entryLine e ++ '\n' :: rest) := by
  obtain ⟨⟨hname, hvalue⟩, q, hinert⟩ := h
  have hfront : ∀ c ∈ e.1.toList ++ [' '], Text.IsOrdinary c := by
    intro c hc
    rcases List.mem_append.1 hc with hc | hc
    · exact (Text.isOrdinary_of_isNameChar (hname.2 c hc)).1
    · rw [List.mem_singleton.1 hc]
      decide
  have hline : entryLine e ++ '\n' :: rest =
      (e.1.toList ++ [' ']) ++ (Text.quoteChars e.2.toList ++ '\n' :: rest) := by
    simp [entryLine]
  rw [hline, Text.uncommented_ordinary_append hfront]
  rcases Text.quoteChars_cases hvalue with ⟨hbare, heq⟩ | ⟨q', hq, hv, heq⟩
  · rw [heq, Text.uncommented_ordinary_append fun c hc =>
      Text.isOrdinary_of_not_isReserved ((Text.bare_parts hbare).2 c hc).2,
      Text.uncommented_feed]
    exact hrest
  · have hhash : q' ≠ '#' := by rcases hq with rfl | rfl <;> decide
    have hopen : Text.quoteBehind none q' = some q' := by rcases hq with rfl | rfl <;> rfl
    rw [heq, List.cons_append, List.append_assoc, List.singleton_append, Uncommented, hopen,
      Text.uncommented_append]
    -- whatever quotes the value opens and closes, the line feed behind it closes them all
    exact ⟨fun _ => hhash, hinert.quoted hv, fun _ => hhash, Text.uncommented_feed.2 hrest⟩

/-- What a verification script can give is printed as a script that gives it again, up to carriage
returns at line ends. -/
theorem readEntries_of_given {es : List (String × String)} (h : ∀ e ∈ es, Given e) :
    readEntries (String.join (es.map entryText)) = .ok (es.map settled) := by
  have htext :
      (String.join (es.map entryText)).toList = (es.map entryLine).flatMap (· ++ ['\n']) := by
    rw [String.toList_join, List.flatMap_map, List.flatMap_map]
    exact congrArg (es.flatMap ·) (funext toList_entryText)
  have hparagraphs : ∀ w ∈ es.map entryLine, Text.IsParagraph w := by
    intro w hw
    obtain ⟨e, he, rfl⟩ := List.mem_map.1 hw
    exact isParagraph_entryLine (h e he).legible
  have hinert : Uncommented none ((es.map entryLine).flatMap (· ++ ['\n'])) := by
    clear htext hparagraphs
    induction es with
    | nil => trivial
    | cons e es ih =>
      rw [List.map_cons, List.flatMap_cons, List.append_assoc, List.singleton_append]
      exact uncommented_entryLine (h e List.mem_cons_self)
        (ih fun e' he' => h e' (List.mem_cons_of_mem _ he'))
  have hsettled : (es.map entryLine).map feedsOnly = (es.map settled).map entryLine := by
    rw [List.map_map, List.map_map]
    exact List.map_congr_left fun e he => (entryLine_settled (h e he).legible.1).symm
  have hlegible : ∀ e ∈ es.map settled, Legible e := by
    intro e he
    obtain ⟨e', he', rfl⟩ := List.mem_map.1 he
    exact (h e' he').legible.settled
  have hread := read_verifyScript hlegible
  unfold readEntries readAll
  simp only [htext, Text.stripComments_of_uncommented hparagraphs hinert, hsettled, Reader.parse,
    hread]

end Script
end TaskTable
