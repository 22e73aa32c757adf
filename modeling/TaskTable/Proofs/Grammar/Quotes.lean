import TaskTable.Proofs.Grammar.Spelling
import TaskTable.Proofs.Text.Layout

/-!
# Quotes in table lines

The scanner that takes comments off knows quotes and nothing else of the grammar. On the texts of
table lines the two agree: each of these is balanced, so a comment behind it is one. The values on a
line can be quoted again, as no quoted value holds its own quote.
-/

namespace TaskTable
namespace Grammar

open Text (Balanced balanced_of_inert balanced_of_ordinary)

variable {line : Line} {s : List Char}

/-! ## No comment begins in a line -/

theorem IsGap.balanced {g : List Char} (h : IsGap g) : Balanced g := by
  refine balanced_of_ordinary fun c hc => ?_
  have hcases : c = ' ' ∨ c = '\t' ∨ c = '\n' ∨ c = '\r' := by simpa [isGap] using h c hc
  rcases hcases with rfl | rfl | rfl | rfl <;> decide

theorem IsName.balanced {name : String} (h : IsName name) : Balanced name.toList :=
  balanced_of_ordinary fun c hc => (Text.isOrdinary_of_isNameChar (h.2 c hc)).1

theorem balanced_digits {digits : List Char} (h : ∀ d ∈ digits, d.isDigit = true) :
    Balanced digits := by
  refine balanced_of_ordinary fun d hd => (Text.isOrdinary_of_isNameChar ?_).1
  simp [isNameChar, Char.isAlphanum, h d hd]

theorem SpellsValue.balanced {v : String} {w : List Char} (h : SpellsValue v w) : Balanced w := by
  cases h with
  | single v h => exact Text.balanced_quoted (.inl rfl) h
  | double v h => exact Text.balanced_quoted (.inr rfl) h
  | bare v hne h =>
    refine balanced_of_ordinary fun c hc => Text.isOrdinary_of_not_isReserved ?_
    have hchar := h c hc
    simp only [isValueChar, Bool.and_eq_true, Bool.not_eq_true'] at hchar
    exact hchar.2

theorem SpellsSetting.balanced {st : Setting} {w : List Char} (h : SpellsSetting st w) :
    Balanced w := by
  cases h with
  | wait digits hne h =>
    have hkey : Balanced "wait=".toList := balanced_of_inert (by decide)
    exact hkey.append (balanced_digits h)
  | max digits hne h =>
    have hkey : Balanced "max=".toList := balanced_of_inert (by decide)
    exact hkey.append (balanced_digits h)
  | exec on => cases on <;> exact balanced_of_inert (by decide)

theorem SpellsSettings.balanced {ss : List PlacedSetting} (h : SpellsSettings ss s) :
    Balanced s := by
  induction h with
  | nil g hg => exact hg.balanced
  | cons g w rest st ss hg hw hrest ih => exact hg.balanced.append (hw.balanced.append ih)

theorem SpellsMethod.balanced {method : Option String} (h : SpellsMethod method s) :
    Balanced s := by
  cases h with
  | none => exact Text.balanced_nil
  | some g g' m hg hg' hm =>
    exact hg.balanced.append (.cons (by decide) (hg'.balanced.append hm.balanced))

theorem SpellsTimer.balanced {timer : Option String} (h : SpellsTimer timer s) : Balanced s := by
  cases h with
  | none => exact Text.balanced_nil
  | some g g' g'' t hg hg' hg'' ht =>
    have hbracket : Balanced [']'] := balanced_of_inert (by decide)
    exact hg.balanced.append
      (.cons (by decide) (hg'.balanced.append (ht.balanced.append (hg''.balanced.append hbracket))))

/-- No comment begins in the text of a line, and no quote is left open at its end. -/
theorem SpellsLine.balanced (h : SpellsLine line s) : Balanced s := by
  obtain ⟨g, w, hg, hw, rfl⟩ := h
  refine hg.balanced.append ?_
  cases hw with
  | blockClose g hg => exact .cons (by decide) hg.balanced
  | blockOpen state method timer m t g g' hstate hm ht hg hg' =>
    have hbrace : Balanced ('{' :: g') := .cons (by decide) hg'.balanced
    exact hstate.balanced.append <| hm.balanced.append <| ht.balanced.append <|
      hg.balanced.append hbrace
  | assignment name value g g' w g'' hname hg hg' hw hg'' =>
    exact hname.balanced.append <| hg.balanced.append <|
      .cons (by decide) (hg'.balanced.append (hw.balanced.append hg''.balanced))
  | transition value target ss w g rest hw hg htarget hrest hgap hend =>
    exact hw.balanced.append (hg.balanced.append (htarget.balanced.append hrest.balanced))

/-! ## Values can be quoted again -/

/-- A value that is written on one line can be quoted. -/
theorem SpellsValue.quotable {v : String} {w : List Char} (h : SpellsValue v w) (hw : '\n' ∉ w) :
    Quotable v := by
  refine ⟨?_, h.enclosable⟩
  cases h with
  | single v h | double v h => simp_all
  | bare v hne h => rwa [String.toList_ofList]

/-- The value of a line, if it has one. -/
def Line.value? : Line → Option String
  | .assignment _ value => some value
  | .transition value _ _ => some value
  | _ => none

theorem SpellsLine.quotable (h : SpellsLine line s) (hs : '\n' ∉ s) {v : String}
    (hv : line.value? = some v) : Quotable v := by
  obtain ⟨g, w, -, hw, rfl⟩ := h
  cases hw with
  | blockClose g hg => cases hv
  | blockOpen state method timer m t g g' hstate hm ht hg hg' => cases hv
  | assignment name value g g' w g'' hname hg hg' hw hg'' =>
    cases hv
    exact hw.quotable fun hmem => hs (by simp [hmem])
  | transition value target ss w g rest hw hg htarget hrest hgap hend =>
    cases hv
    exact hw.quotable fun hmem => hs (by simp [hmem])

end Grammar
end TaskTable
