import TaskTable.Grammar.Script
import TaskTable.Proofs.Grammar.Names
import TaskTable.Proofs.Grammar.Runs

/-!
# Reading back

What the readers of scripts make of a text that was printed for them: a name, a quoted value, or a
row of forms with one gap between any two is read as what it was printed from, and what stands
behind it is left.
-/

namespace TaskTable
namespace Grammar

open Reader

/-! ## Runs of characters -/

variable {ρ : Type}

theorem read_run_append {p : Char → Bool} {w rest : List Char} (hw : ∀ c ∈ w, p c = true)
    (hrest : Stops p rest) : (run p : Reader ρ _).read (w ++ rest) = some (w, rest) := by
  rw [read_run, takeWhile_of_stops hw hrest, dropWhile_of_stops hw hrest]

theorem read_run1_append {p : Char → Bool} {w rest : List Char} (hne : w ≠ [])
    (hw : ∀ c ∈ w, p c = true) (hrest : Stops p rest) :
    (run1 p : Reader ρ _).read (w ++ rest) = some (w, rest) := by
  obtain ⟨c, cs, rfl⟩ := List.exists_cons_of_ne_nil hne
  unfold run1
  dsimp only
  rw [takeWhile_of_stops hw hrest, dropWhile_of_stops hw hrest]

/-- A run of at least one character is not read where there is none. -/
theorem read_run1_of_stops {p : Char → Bool} {rest : List Char} (hrest : Stops p rest) :
    (run1 p : Reader ρ _).read rest = none := by
  unfold run1
  dsimp only
  rw [takeWhile_eq_nil_of_stops hrest]

theorem read_literal_cons (c : Char) (rest : List Char) :
    (literal [c] : Reader ρ Unit).read (c :: rest) = some ((), rest) := by
  simp [literal]

theorem read_literal_of_stops {c : Char} {s : List Char} (h : Stops (· == c) s) :
    (literal [c] : Reader ρ Unit).read s = none := by
  cases s with
  | nil => simp [literal]
  | cons d ds =>
    have hne : (d == c) = false := h d rfl
    simp only [beq_eq_false_iff_ne] at hne
    simp [literal, Ne.symm hne]

/-- A gap is read up to the next token. -/
theorem read_gap {w rest : List Char} (hw : ∀ c ∈ w, isGap c = true) (hrest : Stops isGap rest) :
    gap.read (w ++ rest) = some ((), rest) := by
  unfold gap
  rw [read_bind, read_run_append hw hrest]
  rfl

/-! ## Names -/

theorem isGap_of_isNameChar {c : Char} (h : isNameChar c = true) : isGap c = false := by
  have hne : c ≠ ' ' ∧ c ≠ '\t' ∧ c ≠ '\n' ∧ c ≠ '\r' := by
    refine ⟨?_, ?_, ?_, ?_⟩ <;> rintro rfl <;> revert h <;> decide
  simp [isGap, hne]

theorem read_stateName {name : String} (h : IsName name) {rest : List Char}
    (hrest : Stops isNameChar rest) :
    stateName.read (name.toList ++ rest) = some (name, rest) := by
  unfold stateName ident
  rw [read_named, read_named, read_bind, read_run1_append h.1 h.2 hrest]
  simp

/-! ## Values -/

/-- A value that a script can hold: on one line, and without one of the two quote characters. -/
def Quotable (v : String) : Prop :=
  '\n' ∉ v.toList ∧ ('\'' ∉ v.toList ∨ '"' ∉ v.toList)

instance (v : String) : Decidable (Quotable v) :=
  inferInstanceAs (Decidable (_ ∧ _))

/-- A value that can be put between quotes, on however many lines. -/
def Enclosable (v : String) : Prop :=
  '\'' ∉ v.toList ∨ '"' ∉ v.toList

theorem Quotable.enclosable {v : String} (h : Quotable v) : Enclosable v :=
  h.2

theorem isValueChar_of_isBare {v : List Char} (h : Text.isBare v = true) :
    v ≠ [] ∧ ∀ c ∈ v, isValueChar c = true := by
  simp only [Text.isBare, Bool.and_eq_true, List.all_eq_true, Bool.not_eq_true'] at h
  refine ⟨by simpa using h.1, fun c hc => ?_⟩
  obtain ⟨hblank, hreserved⟩ := h.2 c hc
  have hgap : isGap c = false := by
    refine Bool.eq_false_iff.2 fun hgap => ?_
    have hcases : c = ' ' ∨ c = '\t' ∨ c = '\n' ∨ c = '\r' := by simpa [isGap] using hgap
    rcases hcases with rfl | rfl | rfl | rfl <;> revert hblank <;> decide
  simp [isValueChar, hgap, hreserved]

/-- A value between two quote characters `q` that does not hold one. -/
theorem read_quoted {q : Char} {v : List Char} (h : q ∉ v) (r : Rule) (rest : List Char) :
    (do
      literal [q]
      let v ← named r (run (· != q))
      literal [q]
      return v : TextReader (List Char)).read (q :: (v ++ q :: rest)) = some (v, rest) := by
  have hv : ∀ c ∈ v, (c != q) = true := fun c hc => bne_iff_ne.2 (ne_of_mem_of_not_mem hc h)
  have hstop : Stops (· != q) (q :: rest) := stops_cons (by simp) rest
  simp only [read_bind, read_named, read_literal_cons, Option.bind_some, read_pure,
    read_run_append hv hstop]

theorem read_singleQuoted_of_stops {s : List Char} (h : Stops (· == '\'') s) :
    singleQuoted.read s = none := by
  unfold singleQuoted
  rw [read_named, read_bind, read_literal_of_stops h]
  rfl

theorem read_doubleQuoted_of_stops {s : List Char} (h : Stops (· == '"') s) :
    doubleQuoted.read s = none := by
  unfold doubleQuoted
  rw [read_named, read_bind, read_literal_of_stops h]
  rfl

/-- A value is not read where no quote and no character of a value stands. -/
theorem read_value_of_stops {s : List Char} (hsingle : Stops (· == '\'') s)
    (hdouble : Stops (· == '"') s) (hbare : Stops isValueChar s) : value.read s = none := by
  unfold value bareValue
  rw [read_named, read_bind, read_orElse, read_singleQuoted_of_stops hsingle, Option.none_or,
    read_orElse, read_doubleQuoted_of_stops hdouble, Option.none_or, read_named,
    read_run1_of_stops hbare]
  rfl

/-- The texts of a value: between single or double quotes that it does not hold, or bare. -/
inductive SpellsValue : String → List Char → Prop
  | single (v : List Char) (h : '\'' ∉ v) : SpellsValue (String.ofList v) ('\'' :: (v ++ ['\'']))
  | double (v : List Char) (h : '"' ∉ v) : SpellsValue (String.ofList v) ('"' :: (v ++ ['"']))
  | bare (v : List Char) (hne : v ≠ []) (h : ∀ c ∈ v, isValueChar c = true) :
    SpellsValue (String.ofList v) v

/-- A value that has a text can be put between quotes. -/
theorem SpellsValue.enclosable {v : String} {w : List Char} (h : SpellsValue v w) :
    Enclosable v := by
  unfold Enclosable
  cases h with
  | single v h => exact .inl (by rwa [String.toList_ofList])
  | double v h => exact .inr (by rwa [String.toList_ofList])
  | bare v hne h =>
    rw [String.toList_ofList]
    exact .inl fun hmem => absurd (h _ hmem) (by decide)

/-- A value does not begin like a gap. -/
theorem SpellsValue.stops_gap {v : String} {w : List Char} (h : SpellsValue v w)
    (rest : List Char) : Stops isGap (w ++ rest) := by
  cases h with
  | single v h => exact stops_cons (by decide) _
  | double v h => exact stops_cons (by decide) _
  | bare v hne h =>
    obtain ⟨c, cs, rfl⟩ := List.exists_cons_of_ne_nil hne
    have hc := h c List.mem_cons_self
    simp only [isValueChar, Bool.and_eq_true, Bool.not_eq_true'] at hc
    exact stops_cons hc.1 _

/-- A value is read off its text, unless a bare one runs on into what follows. -/
theorem read_value_of_spells {v : String} {w rest : List Char} (h : SpellsValue v w)
    (hrest : (∀ c ∈ w, isValueChar c = true) → Stops isValueChar rest) :
    value.read (w ++ rest) = some (v, rest) := by
  suffices hread : ∃ v' : List Char, String.ofList v' = v ∧
      (singleQuoted.orElse (doubleQuoted.orElse bareValue)).read (w ++ rest) = some (v', rest) by
    obtain ⟨v', rfl, hread⟩ := hread
    unfold value
    rw [read_named, read_bind, hread]
    rfl
  cases h with
  | single v h =>
    have hread : singleQuoted.read ('\'' :: (v ++ '\'' :: rest)) = some (v, rest) :=
      read_quoted h .singleInner rest
    refine ⟨v, rfl, ?_⟩
    rw [List.cons_append, List.append_assoc, List.singleton_append, read_orElse, hread]
    rfl
  | double v h =>
    have hread : doubleQuoted.read ('"' :: (v ++ '"' :: rest)) = some (v, rest) :=
      read_quoted h .doubleInner rest
    refine ⟨v, rfl, ?_⟩
    rw [List.cons_append, List.append_assoc, List.singleton_append, read_orElse, read_orElse,
      hread, read_singleQuoted_of_stops fun c hc => by cases hc; decide]
    rfl
  | bare v hne h =>
    -- a bare value does not begin with a quote
    have hfront : ∀ q, isValueChar q = false → Stops (· == q) (w ++ rest) := by
      obtain ⟨c, cs, hcs⟩ := List.exists_cons_of_ne_nil hne
      rw [hcs] at h ⊢
      intro q hq d hd
      cases hd
      refine beq_eq_false_iff_ne.2 ?_
      rintro rfl
      rw [h _ List.mem_cons_self] at hq
      cases hq
    refine ⟨w, rfl, ?_⟩
    rw [read_orElse, read_orElse, read_singleQuoted_of_stops (hfront _ (by decide)),
      read_doubleQuoted_of_stops (hfront _ (by decide))]
    exact read_run1_append (ρ := Rule) hne h (hrest h)

/-- The written form of a value is one of its texts. -/
theorem spellsValue_quoteChars {v : String} (h : Enclosable v) :
    SpellsValue v (Text.quoteChars v.toList) := by
  suffices hspells : SpellsValue (String.ofList v.toList) (Text.quoteChars v.toList) by
    rwa [String.ofList_toList] at hspells
  unfold Text.quoteChars
  split
  · next hbare =>
    obtain ⟨hne, hchars⟩ := isValueChar_of_isBare hbare
    exact .bare _ hne hchars
  · split
    · next hsingle => exact .double _ (h.resolve_left (by simpa using hsingle))
    · next hsingle => exact .single _ (by simpa using hsingle)

/-- A quoted value is read back, unless a bare one runs on into what follows. -/
theorem read_value {v : String} (h : Enclosable v) {rest : List Char}
    (hrest : Stops isValueChar rest) :
    value.read (Text.quoteChars v.toList ++ rest) = some (v, rest) :=
  read_value_of_spells (spellsValue_quoteChars h) fun _ => hrest

/-! ## Fronts -/

/-- A name does not begin like a gap. -/
theorem exists_front_of_isName {name : String} (h : IsName name) (rest : List Char) :
    ∃ c cs, name.toList ++ rest = c :: cs ∧ isGap c = false := by
  obtain ⟨c, cs, hcs⟩ := List.exists_cons_of_ne_nil h.1
  refine ⟨c, cs ++ rest, by rw [hcs, List.cons_append], isGap_of_isNameChar (h.2 c ?_)⟩
  rw [hcs]
  exact List.mem_cons_self

theorem stops_gap_of_isName {name : String} (h : IsName name) (rest : List Char) :
    Stops isGap (name.toList ++ rest) := by
  obtain ⟨c, cs, hcs, hc⟩ := exists_front_of_isName h rest
  rw [hcs]
  exact stops_cons hc cs

theorem exists_front_of_quoteChars (v : List Char) :
    ∃ c cs, Text.quoteChars v = c :: cs ∧ isGap c = false := by
  unfold Text.quoteChars
  split
  · next hbare =>
    obtain ⟨hne, hchars⟩ := isValueChar_of_isBare hbare
    obtain ⟨c, cs, rfl⟩ := List.exists_cons_of_ne_nil hne
    have hc := hchars c List.mem_cons_self
    simp only [isValueChar, Bool.and_eq_true, Bool.not_eq_true'] at hc
    exact ⟨c, cs, rfl, hc.1⟩
  · split
    · exact ⟨'"', _, rfl, rfl⟩
    · exact ⟨'\'', _, rfl, rfl⟩

/-- A gap of one character. -/
theorem read_gap_cons {c : Char} (hc : isGap c = true) {rest : List Char}
    (hrest : Stops isGap rest) : gap.read (c :: rest) = some ((), rest) :=
  read_gap (w := [c]) (fun d hd => by rw [List.mem_singleton.1 hd]; exact hc) hrest

/-! ## Rows -/

section Rows

variable {α : Type} {p : TextReader α} {text : α → List Char} {sep rest : List Char}

/-- The printed form of `a` does not begin like a gap, and `p` reads it back when either `rest` or a
gap `sep` stands behind it. -/
structure ReadsIn (p : TextReader α) (text : α → List Char) (sep rest : List Char) (a : α) :
    Prop where
  front : ∃ c cs, text a = c :: cs ∧ isGap c = false
  read : ∀ after, (after = rest ∨ ∃ more, after = sep ++ more) →
    p.read (text a ++ after) = some (a, after)

/-- Behind a form of a row stands another gap, or what follows the row. -/
theorem rest_or_gap (text : α → List Char) (sep rest : List Char) (as : List α) :
    (as.flatMap fun a => sep ++ text a) ++ rest = rest ∨
      ∃ more, (as.flatMap fun a => sep ++ text a) ++ rest = sep ++ more := by
  cases as with
  | nil => exact .inl rfl
  | cons a as =>
    exact .inr ⟨_, by rw [List.flatMap_cons, List.append_assoc, List.append_assoc]⟩

/-- The forms of a row but the first, each behind its gap. -/
theorem repeatRead_gaps (hsep : ∀ c ∈ sep, isGap c = true)
    (hend : (do gap; p : TextReader α).read rest = none) :
    ∀ (as : List α), (∀ a ∈ as, ReadsIn p text sep rest a) → ∀ n, as.length < n →
      repeatRead (do gap; p : TextReader α) n ((as.flatMap fun a => sep ++ text a) ++ rest) =
        (as, rest)
  | _, _, 0, hn => absurd hn (Nat.not_lt_zero _)
  | [], _, n + 1, _ => by
    simp only [repeatRead, List.flatMap_nil, List.nil_append, hend]
  | a :: as, has, n + 1, hn => by
    have hrest := repeatRead_gaps hsep hend as (fun a' ha' => has a' (List.mem_cons_of_mem _ ha'))
      n (Nat.lt_of_succ_lt_succ hn)
    have hafter := rest_or_gap text sep rest as
    rw [List.flatMap_cons, List.append_assoc, List.append_assoc]
    generalize (as.flatMap fun a => sep ++ text a) ++ rest = after at *
    have ha := has a List.mem_cons_self
    obtain ⟨c, cs, htext, hc⟩ := ha.front
    have hgap : gap.read (sep ++ (text a ++ after)) = some ((), text a ++ after) :=
      read_gap hsep (by rw [htext]; exact stops_cons hc _)
    have hread : (do gap; p : TextReader α).read (sep ++ (text a ++ after)) = some (a, after) := by
      rw [read_bind, hgap]
      exact ha.read after hafter
    simp only [repeatRead, hread, hrest]

/-- A row of forms is read as the forms, up to where no further one stands. -/
theorem read_spaced (hsep : ∀ c ∈ sep, isGap c = true)
    (hend : (do gap; p : TextReader α).read rest = none) {a : α} {as : List α}
    (has : ∀ a' ∈ a :: as, ReadsIn p text sep rest a') :
    (spaced p).read (text a ++ ((as.flatMap fun a => sep ++ text a) ++ rest)) =
      some (a :: as, rest) := by
  have htail : ∀ a' ∈ as, ReadsIn p text sep rest a' :=
    fun a' ha' => has a' (List.mem_cons_of_mem _ ha')
  -- each form takes at least one character, so the text is fuel enough
  have hlength : as.length ≤ (as.flatMap fun a => sep ++ text a).length := by
    clear has
    induction as with
    | nil => exact Nat.le_refl _
    | cons b bs ih =>
      obtain ⟨c, cs, htext, -⟩ := (htail b List.mem_cons_self).front
      have hle := ih fun b' hb' => htail b' (List.mem_cons_of_mem _ hb')
      rw [List.flatMap_cons, List.length_append, List.length_append, htext]
      simp only [List.length_cons]
      omega
  have hmany := repeatRead_gaps hsep hend as htail
    (((as.flatMap fun a => sep ++ text a) ++ rest).length + 1) (by rw [List.length_append]; omega)
  have hread := (has a List.mem_cons_self).read _ (rest_or_gap text sep rest as)
  generalize (as.flatMap fun a => sep ++ text a) ++ rest = after at *
  have hmany : (many (do gap; p) : TextReader (List α)).read after = some (as, rest) :=
    congrArg some hmany
  unfold spaced
  rw [read_bind, read_opt, hread]
  show ((many (do gap; p) : TextReader (List α)) >>= fun as => pure (a :: as)).read after = _
  rw [read_bind, hmany]
  rfl

/-- Where no form stands, a row is empty. -/
theorem read_spaced_of_none (h : p.read rest = none) : (spaced p).read rest = some ([], rest) := by
  unfold spaced
  rw [read_bind, read_opt, h]
  rfl

/-- A text that is one row is read as a whole script. -/
theorem read_whole (r : Rule) {text : List Char} {as : List α} (hfront : Stops isGap text)
    (hrow : (spaced p).read text = some (as, [])) :
    (named r do
      gap
      let as ← spaced p
      gap
      endOfInput
      return as : TextReader (List α)).read text = some (as, []) := by
  have hgap : gap.read text = some ((), text) := read_gap (w := []) (by simp) hfront
  have hlast : gap.read [] = some ((), []) := rfl
  simp only [read_named, read_bind, hgap, Option.bind_some, hrow, hlast]
  rfl

end Rows

end Grammar
end TaskTable
