import TaskTable.Proofs.Grammar.ReadBack
import TaskTable.Proofs.Number.Digits
import TaskTable.Proofs.Text.Blank
import TaskTable.Proofs.Text.Lines
import TaskTable.Text.Comment

/-!
# Plain lines

Lines that stand in a text as they are, with no comment in them. The written form of a value is one,
also behind characters that begin neither a comment nor a quoted value.
-/

namespace TaskTable
namespace Text

/-- A line that stands in a text as it is, with no comment in it. -/
structure Plain (l : List Char) : Prop extends IsLine l where
  noComment : stripComment l = l

theorem lines_of_plain {ls : List (List Char)} (h : ∀ l ∈ ls, Plain l) :
    lines (ls.flatMap (· ++ ['\n'])) = ls := by
  induction ls with
  | nil => rfl
  | cons l ls ih =>
    have hl := h l List.mem_cons_self
    rw [List.flatMap_cons, List.append_assoc, List.singleton_append,
      lines_append_newline hl.oneLine hl.noReturn, ih fun m hm => h m (List.mem_cons_of_mem _ hm)]

/-! ## Written values -/

/-- A character that begins no comment and no quoted value. -/
def IsOrdinary (c : Char) : Prop :=
  c ≠ '#' ∧ c ≠ '\'' ∧ c ≠ '"'

instance : DecidablePred IsOrdinary :=
  fun _ => inferInstanceAs (Decidable (_ ∧ _ ∧ _))

/-- A text on one line in which no comment and no quoted value begins. -/
def Inert (w : List Char) : Prop :=
  ∀ c ∈ w, IsOrdinary c ∧ c ≠ '\n'

instance (w : List Char) : Decidable (Inert w) :=
  List.decidableBAll _ w

theorem Inert.append {w w' : List Char} (h : Inert w) (h' : Inert w') : Inert (w ++ w') :=
  List.forall_mem_append.2 ⟨h, h'⟩

theorem stripComment_append {w : List Char} (h : ∀ c ∈ w, IsOrdinary c) (rest : List Char) :
    stripComment (w ++ rest) = w ++ stripComment rest := by
  induction w with
  | nil => rfl
  | cons c cs ih =>
    obtain ⟨hhash, hsingle, hdouble⟩ := h c List.mem_cons_self
    have hcs := ih fun d hd => h d (List.mem_cons_of_mem _ hd)
    simp only [stripComment, List.cons_append, stripCommentFrom, hhash, hsingle, hdouble, if_false,
      or_self] at hcs ⊢
    rw [hcs]

theorem stripComment_of_ordinary {w : List Char} (h : ∀ c ∈ w, IsOrdinary c) :
    stripComment w = w := by
  have happend := stripComment_append h []
  rwa [List.append_nil, show stripComment [] = [] from rfl, List.append_nil] at happend

theorem stripCommentFrom_some {q : Char} {v : List Char} (h : q ∉ v) (rest : List Char) :
    stripCommentFrom (some q) (v ++ q :: rest) = v ++ q :: stripComment rest := by
  induction v with
  | nil => rw [List.nil_append, List.nil_append, stripCommentFrom, if_pos rfl, stripComment]
  | cons c cs ih =>
    have hc : c ≠ q := fun e => h (e ▸ List.mem_cons_self)
    rw [List.cons_append, stripCommentFrom, if_neg hc, ih fun hm => h (List.mem_cons_of_mem _ hm),
      List.cons_append]

theorem isOrdinary_of_not_isReserved {c : Char} (h : isReserved c = false) : IsOrdinary c := by
  refine ⟨?_, ?_, ?_⟩ <;> rintro rfl <;> revert h <;> decide

theorem isBlank_of_isNameChar {c : Char} (h : Grammar.isNameChar c = true) : isBlank c = false := by
  simp only [Grammar.isNameChar, Bool.or_eq_true, beq_iff_eq] at h
  rcases h with ((halphanum | rfl) | rfl) | rfl
  · have hparts : (c.isUpper || c.isLower || c.isDigit) = true := halphanum
    simp only [Bool.or_eq_true] at hparts
    rcases hparts with (hupper | hlower) | hdigit
    · have hrange : 65 ≤ c.toNat ∧ c.toNat ≤ 90 := of_decide_eq_true hupper
      simp [isBlank]
      omega
    · obtain ⟨hge, hle⟩ := Bool.and_eq_true_iff.1 hlower
      have hlow : 97 ≤ c.toNat := of_decide_eq_true hge
      have hhigh : c.toNat ≤ 122 := of_decide_eq_true hle
      simp [isBlank]
      omega
    · obtain ⟨hlow, hhigh⟩ := Char.isDigit_iff_toNat.1 hdigit
      have hlow : 48 ≤ c.toNat := hlow
      have hhigh : c.toNat ≤ 57 := hhigh
      simp [isBlank]
      omega
  · decide
  · decide
  · decide

theorem isOrdinary_of_isNameChar {c : Char} (h : Grammar.isNameChar c = true) :
    IsOrdinary c ∧ c ≠ '\n' := by
  refine ⟨⟨?_, ?_, ?_⟩, ?_⟩ <;> rintro rfl <;> revert h <;> decide

theorem inert_name {name : String} (h : Grammar.IsName name) : Inert name.toList :=
  fun c hc => isOrdinary_of_isNameChar (h.2 c hc)

theorem inert_digits (n : Nat) : Inert (Number.digits n) := by
  intro c hc
  apply isOrdinary_of_isNameChar
  have hdigit := Number.isDigit_of_mem_digits hc
  simp [Grammar.isNameChar, Char.isAlphanum, hdigit]

/-- The parts of a value that is written bare. -/
theorem bare_parts {v : List Char} (h : isBare v = true) :
    v ≠ [] ∧ ∀ c ∈ v, isBlank c = false ∧ isReserved c = false := by
  simp only [isBare, Bool.and_eq_true, List.all_eq_true, Bool.not_eq_true'] at h
  exact ⟨by simpa using h.1, h.2⟩

/-- The written form of a value: bare, or between quotes that it does not hold. -/
theorem quoteChars_cases {v : String} (h : Grammar.Enclosable v) :
    (isBare v.toList = true ∧ quoteChars v.toList = v.toList) ∨
      ∃ q, (q = '\'' ∨ q = '"') ∧ q ∉ v.toList ∧ quoteChars v.toList = q :: (v.toList ++ [q]) := by
  unfold quoteChars
  split
  · next hbare => exact .inl ⟨hbare, rfl⟩
  · split
    · next hsingle =>
      exact .inr ⟨'"', .inr rfl, h.resolve_left (by simpa using hsingle), rfl⟩
    · next hsingle => exact .inr ⟨'\'', .inl rfl, by simpa using hsingle, rfl⟩

theorem toList_quote (v : String) : (quote v).toList = quoteChars v.toList :=
  String.toList_ofList

/-- A comment behind a written value is one, and none begins in the value. -/
theorem stripComment_quoteChars {v : String} (h : Grammar.Quotable v) (rest : List Char) :
    stripComment (quoteChars v.toList ++ rest) = quoteChars v.toList ++ stripComment rest := by
  rcases quoteChars_cases h.enclosable with ⟨hbare, heq⟩ | ⟨q, hq, hv, heq⟩
  · rw [heq]
    apply stripComment_append
    intro c hc
    exact isOrdinary_of_not_isReserved ((bare_parts hbare).2 c hc).2
  · have hhash : q ≠ '#' := by rcases hq with rfl | rfl <;> decide
    rw [heq, List.cons_append, List.append_assoc, List.singleton_append, stripComment,
      stripCommentFrom, if_neg hhash, if_pos hq, stripCommentFrom_some hv]
    simp

/-- A written value is on one line. -/
theorem feed_not_mem_quoteChars {v : String} (h : Grammar.Quotable v) :
    '\n' ∉ quoteChars v.toList := by
  rcases quoteChars_cases h.enclosable with ⟨-, heq⟩ | ⟨q, hq, -, heq⟩
  · rw [heq]
    exact h.1
  · have hfeed : '\n' ≠ q := by rcases hq with rfl | rfl <;> decide
    rw [heq]
    simp [hfeed, h.1]

theorem quoteChars_ne_nil (v : List Char) : quoteChars v ≠ [] := by
  unfold quoteChars
  split
  · next hbare => exact (bare_parts hbare).1
  · split <;> simp

/-- No blank stands at either end of a written value. -/
theorem not_isBlank_quoteChars {v : String} (h : Grammar.Enclosable v) {c : Char}
    (hc : c ∈ (quoteChars v.toList).head? ∨ c ∈ (quoteChars v.toList).getLast?) :
    isBlank c = false := by
  rcases quoteChars_cases h with ⟨hbare, heq⟩ | ⟨q, hq, -, heq⟩
  · have hmem : c ∈ v.toList := by
      rw [heq] at hc
      rcases hc with hc | hc
      · exact List.mem_of_head? hc
      · exact List.mem_of_getLast? hc
    exact ((bare_parts hbare).2 c hmem).1
  · have hcq : c = q := by
      rw [heq, ← List.cons_append, List.getLast?_concat] at hc
      rcases hc with hc | hc
      · exact (Option.some.inj hc).symm
      · exact (Option.some.inj hc).symm
    rw [hcq]
    rcases hq with rfl | rfl <;> decide

/-- The written form of a value is a plain line. -/
theorem plain_quoteChars {v : String} (h : Grammar.Quotable v) : Plain (quoteChars v.toList) where
  nonempty := quoteChars_ne_nil _
  oneLine := feed_not_mem_quoteChars h
  noReturn hlast := by
    have hblank := not_isBlank_quoteChars h.enclosable (.inr hlast)
    revert hblank
    decide
  noComment := by
    have hstrip := stripComment_quoteChars h []
    rwa [List.append_nil, show stripComment [] = [] from rfl, List.append_nil] at hstrip

/-- A plain line behind ordinary characters is a plain line. -/
theorem plain_append {w l : List Char} (hw : Inert w) (hl : Plain l) :
    Plain (w ++ l) where
  nonempty := List.append_ne_nil_of_right_ne_nil w hl.nonempty
  oneLine h := by
    rcases List.mem_append.1 h with h | h
    · exact (hw _ h).2 rfl
    · exact hl.oneLine h
  noReturn := by
    have hlast := List.getLast?_eq_some_getLast hl.nonempty
    rw [List.getLast?_append, hlast, Option.some_or, ← hlast]
    exact hl.noReturn
  noComment := by
    rw [stripComment_append fun c hc => (hw c hc).1, hl.noComment]

theorem plain_of_inert {w : List Char} (h : Inert w) (hne : w ≠ [])
    (hreturn : w.getLast? ≠ some '\r') : Plain w where
  nonempty := hne
  oneLine hmem := (h _ hmem).2 rfl
  noReturn := hreturn
  noComment := stripComment_of_ordinary fun c hc => (h c hc).1

/-- What follows a written value on its line leaves it a plain line. -/
theorem plain_quoteChars_append {v : String} {w : List Char} (hv : Grammar.Quotable v) (h : Plain w)
    (hw : Inert w) : Plain (quoteChars v.toList ++ w) where
  nonempty := List.append_ne_nil_of_right_ne_nil _ h.nonempty
  oneLine hmem := by
    rcases List.mem_append.1 hmem with hmem | hmem
    · exact feed_not_mem_quoteChars hv hmem
    · exact (hw _ hmem).2 rfl
  noReturn := by
    have hlast := List.getLast?_eq_some_getLast h.nonempty
    rw [List.getLast?_append, hlast, Option.some_or, ← hlast]
    exact h.noReturn
  noComment := by rw [stripComment_quoteChars hv, h.noComment]

/-! ## Lines without blanks at their ends -/

/-- A plain line that neither begins nor ends with a blank. -/
structure Tidy (l : List Char) : Prop extends Plain l where
  front : ∀ c ∈ l.head?, isBlank c = false
  back : ∀ c ∈ l.getLast?, isBlank c = false

/-- A tidy line is trimmed already. -/
theorem Tidy.trim_eq {l : List Char} (h : Tidy l) : trim l = l := by
  apply trim_of_stops h.front
  intro c hc
  rw [List.head?_reverse] at hc
  exact h.back c hc

theorem Tidy.indent_eq {l : List Char} (h : Tidy l) : indent l = 0 := by
  unfold indent
  rw [Grammar.takeWhile_eq_nil_of_stops h.front]
  rfl

end Text
end TaskTable
