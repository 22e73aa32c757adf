import TaskTable.Proofs.Grammar.ReadBack

/-!
# What the small readers take

Each small reader in one equivalence: what it reads and what it leaves, told by the text alone. A
run is as long as it can be, which is what `Stops` says of the text behind it.
-/

namespace TaskTable
namespace Grammar

open Reader

/-! ## Kinds of characters -/

/-- A run of characters between tokens, which may be empty. -/
def IsGap (g : List Char) : Prop :=
  ∀ c ∈ g, isGap c = true

theorem isGap_nil : IsGap [] :=
  fun _ hc => absurd hc List.not_mem_nil

theorem IsGap.append {g g' : List Char} (hg : IsGap g) (hg' : IsGap g') : IsGap (g ++ g') := by
  intro c hc
  rcases List.mem_append.1 hc with hc | hc
  · exact hg c hc
  · exact hg' c hc

theorem isNameChar_of_isGap {c : Char} (h : isGap c = true) : isNameChar c = false := by
  cases hname : isNameChar c with
  | false => rfl
  | true =>
    have hgap := isGap_of_isNameChar hname
    rw [h] at hgap
    cases hgap

theorem isValueChar_of_isNameChar {c : Char} (h : isNameChar c = true) : isValueChar c = true := by
  have hreserved : Text.isReserved c = false := by
    rw [Bool.eq_false_iff]
    intro hc
    have hcases : c = '{' ∨ c = '}' ∨ c = '[' ∨ c = ']' ∨ c = '#' ∨ c = '\'' ∨ c = '"' ∨
        c = '=' := by
      simpa [Text.isReserved] using hc
    rcases hcases with rfl | rfl | rfl | rfl | rfl | rfl | rfl | rfl <;> revert h <;> decide
  rw [isValueChar, isGap_of_isNameChar h, hreserved]
  rfl

theorem isValueChar_of_isGap {c : Char} (h : isGap c = true) : isValueChar c = false := by
  rw [isValueChar, h]
  rfl

/-- A gap is no part of the name in front of it. -/
theorem IsGap.stops_name {g : List Char} (hg : IsGap g) {c : Char} (hc : isNameChar c = false)
    (rest : List Char) : Stops isNameChar (g ++ c :: rest) :=
  stops_append (fun d hd => isNameChar_of_isGap (hg d hd)) (stops_cons hc rest)

theorem isDigit_of_isGap {c : Char} (h : isGap c = true) : c.isDigit = false := by
  have hcases : c = ' ' ∨ c = '\t' ∨ c = '\n' ∨ c = '\r' := by simpa [isGap] using h
  rcases hcases with rfl | rfl | rfl | rfl <;> rfl

/-! ## Readers -/

section Readers

variable {ρ α : Type} {s rest : List Char}

theorem read_bind_iff {β : Type} {p : Reader ρ α} {f : α → Reader ρ β} {b : β} :
    (p >>= f).read s = some (b, rest) ↔
      ∃ a s', p.read s = some (a, s') ∧ (f a).read s' = some (b, rest) := by
  rw [read_bind, Option.bind_eq_some_iff]
  constructor
  · rintro ⟨⟨a, s'⟩, hp, hf⟩
    exact ⟨a, s', hp, hf⟩
  · rintro ⟨a, s', hp, hf⟩
    exact ⟨(a, s'), hp, hf⟩

theorem read_literal_iff {t : List Char} {u : Unit} :
    (literal t : Reader ρ Unit).read s = some (u, rest) ↔ s = t ++ rest := by
  unfold literal
  dsimp only
  rw [Option.ite_none_right_eq_some, List.isPrefixOf_iff_prefix]
  constructor
  · rintro ⟨⟨more, rfl⟩, heq⟩
    rw [List.drop_left] at heq
    rw [(Prod.mk.inj (Option.some.inj heq)).2]
  · rintro rfl
    refine ⟨List.prefix_append t rest, ?_⟩
    rw [List.drop_left]

theorem read_run_iff {p : Char → Bool} {w : List Char} :
    (run p : Reader ρ (List Char)).read s = some (w, rest) ↔
      s = w ++ rest ∧ (∀ c ∈ w, p c = true) ∧ Stops p rest := by
  constructor
  · intro h
    cases h
    refine ⟨List.takeWhile_append_dropWhile.symm, ?_, stops_dropWhile p s⟩
    exact List.all_eq_true.1 List.all_takeWhile
  · rintro ⟨rfl, hw, hrest⟩
    exact read_run_append hw hrest

theorem read_run1_iff {p : Char → Bool} {w : List Char} :
    (run1 p : Reader ρ (List Char)).read s = some (w, rest) ↔
      s = w ++ rest ∧ w ≠ [] ∧ (∀ c ∈ w, p c = true) ∧ Stops p rest := by
  constructor
  · intro h
    obtain ⟨hne, hw⟩ := gives_run1 p s w rest h
    unfold run1 at h
    dsimp only at h
    split at h
    · cases h
    · next c cs htake =>
      cases h
      have hparts : s = s.takeWhile p ++ s.dropWhile p := List.takeWhile_append_dropWhile.symm
      rw [htake] at hparts
      exact ⟨hparts, hne, hw, stops_dropWhile p s⟩
  · rintro ⟨rfl, hne, hw, hrest⟩
    exact read_run1_append hne hw hrest

theorem read_opt_iff {p : Reader ρ α} {o : Option α} :
    (opt p).read s = some (o, rest) ↔
      (∃ a, o = some a ∧ p.read s = some (a, rest)) ∨ (o = none ∧ p.read s = none ∧ s = rest) := by
  rw [read_opt, Option.some.injEq]
  cases hp : p.read s with
  | none =>
    constructor
    · intro h
      cases h
      exact .inr ⟨rfl, rfl, rfl⟩
    · rintro (⟨a, -, h⟩ | ⟨rfl, -, rfl⟩)
      · cases h
      · rfl
  | some r =>
    constructor
    · intro h
      cases h
      exact .inl ⟨_, rfl, rfl⟩
    · rintro (⟨a, rfl, h⟩ | ⟨-, h, -⟩)
      · cases h
        rfl
      · cases h

end Readers

/-! ## Tokens -/

section Tokens

variable {s rest : List Char}

theorem read_gap_iff {u : Unit} :
    gap.read s = some (u, rest) ↔ ∃ g, IsGap g ∧ s = g ++ rest ∧ Stops isGap rest := by
  constructor
  · intro h
    unfold gap at h
    obtain ⟨w, s', hrun, hpure⟩ := read_bind_iff.1 h
    obtain ⟨rfl, hw, hstops⟩ := read_run_iff.1 hrun
    cases hpure
    exact ⟨w, hw, rfl, hstops⟩
  · rintro ⟨g, hg, rfl, hrest⟩
    exact read_gap hg hrest

theorem read_gap_eq (s : List Char) : gap.read s = some ((), s.dropWhile isGap) := rfl

theorem read_ident_iff {name : String} :
    ident.read s = some (name, rest) ↔
      s = name.toList ++ rest ∧ IsName name ∧ Stops isNameChar rest := by
  constructor
  · intro h
    unfold ident at h
    rw [read_named] at h
    obtain ⟨w, s', hrun, hpure⟩ := read_bind_iff.1 h
    obtain ⟨rfl, hne, hw, hstops⟩ := read_run1_iff.1 hrun
    cases hpure
    rw [IsName, String.toList_ofList]
    exact ⟨rfl, ⟨hne, hw⟩, hstops⟩
  · rintro ⟨rfl, hname, hrest⟩
    exact read_stateName hname hrest

theorem read_quoted_iff {q : Char} {r : Rule} {v : List Char} :
    (do
      literal [q]
      let v ← named r (run (· != q))
      literal [q]
      return v : TextReader (List Char)).read s = some (v, rest) ↔
        q ∉ v ∧ s = q :: (v ++ q :: rest) := by
  constructor
  · intro h
    simp only [read_bind_iff, read_named, read_literal_iff, read_run_iff, read_pure,
      Option.some.injEq, Prod.mk.injEq] at h
    obtain ⟨_, _, rfl, w, _, ⟨rfl, hw, -⟩, _, _, rfl, rfl, rfl⟩ := h
    exact ⟨fun hmem => absurd rfl (bne_iff_ne.1 (hw q hmem)), rfl⟩
  · rintro ⟨hv, rfl⟩
    exact read_quoted hv r rest

theorem read_value_iff {v : String} :
    value.read s = some (v, rest) ↔
      ∃ w, SpellsValue v w ∧ s = w ++ rest ∧
        ((∀ c ∈ w, isValueChar c = true) → Stops isValueChar rest) := by
  constructor
  · intro h
    unfold value at h
    rw [read_named] at h
    obtain ⟨v', s', hread, hpure⟩ := read_bind_iff.1 h
    cases hpure
    rw [read_orElse, Option.or_eq_some_iff, read_orElse, Option.or_eq_some_iff] at hread
    rcases hread with hsingle | ⟨-, hdouble | ⟨-, hbare⟩⟩
    · obtain ⟨hv, rfl⟩ := read_quoted_iff.1 hsingle
      refine ⟨_, .single v' hv, by simp, fun hall => ?_⟩
      exact absurd (hall _ List.mem_cons_self) (by decide)
    · obtain ⟨hv, rfl⟩ := read_quoted_iff.1 hdouble
      refine ⟨_, .double v' hv, by simp, fun hall => ?_⟩
      exact absurd (hall _ List.mem_cons_self) (by decide)
    · obtain ⟨rfl, hne, hv, hstops⟩ := (read_run1_iff (ρ := Rule)).1 hbare
      exact ⟨_, .bare v' hne hv, rfl, fun _ => hstops⟩
  · rintro ⟨w, hw, rfl, hrest⟩
    exact read_value_of_spells hw hrest

theorem read_endOfInput_iff {u : Unit} :
    endOfInput.read s = some (u, rest) ↔ s = [] ∧ rest = [] := by
  unfold endOfInput
  rw [read_named]
  cases s with
  | nil =>
    constructor
    · intro h
      cases h
      exact ⟨rfl, rfl⟩
    · rintro ⟨-, rfl⟩
      rfl
  | cons c cs =>
    constructor
    · intro h
      cases h
    · rintro ⟨h, -⟩
      cases h

end Tokens

end Grammar
end TaskTable
