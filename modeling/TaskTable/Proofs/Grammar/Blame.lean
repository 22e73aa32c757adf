import TaskTable.Grammar.Line
import TaskTable.Grammar.Script

/-!
# How far blame reaches

A mismatch is placed where blame ends up: at the furthest point at which a named rule failed. Points
are counted by what is unread there, so that further in means fewer characters. No reader moves
blame back, and the tokens do not move it past the point at which they are tried.
-/

namespace TaskTable
namespace Grammar

/-- A rule that failed is blamed where it was tried, unless others failed further in. -/
theorem Blame.rest_charge {ρ : Type} (after : Blame ρ) (r : ρ) (n : Nat) (before : Blame ρ) :
    (after.charge r n before).rest = min n after.rest := by
  unfold charge
  dsimp only
  split
  · next hone =>
    -- some rule is blamed at the point already
    have hhere : n = after.rest := by
      refine Decidable.byContradiction fun hne => ?_
      simp [countAt, hne] at hone
    omega
  · split
    · dsimp only
      omega
    · split
      · dsimp only
        omega
      · omega

namespace Reader

variable {ρ α β : Type}

/-- A reader that has nothing to blame. -/
def Silent (p : Reader ρ α) : Prop :=
  ∀ s b, p.blame s b = b

/-- A reader that does not move blame back. -/
def Deepens (p : Reader ρ α) : Prop :=
  ∀ s b, (p.blame s b).rest ≤ b.rest

/-- A reader that blames nothing beyond the point at which it is tried. -/
def Shallow (p : Reader ρ α) : Prop :=
  ∀ s b, min s.length b.rest ≤ (p.blame s b).rest

/-! ## Readers without names -/

theorem silent_pure (a : α) : (pure a : Reader ρ α).Silent := fun _ _ => rfl

theorem silent_run (p : Char → Bool) : (run p : Reader ρ (List Char)).Silent := fun _ _ => rfl

theorem silent_run1 (p : Char → Bool) : (run1 p : Reader ρ (List Char)).Silent := fun _ _ => rfl

theorem silent_literal (t : List Char) : (literal t : Reader ρ Unit).Silent := fun _ _ => rfl

theorem silent_atEnd : (atEnd : Reader ρ Unit).Silent := fun _ _ => rfl

theorem silent_ahead : (ahead : Reader ρ (List Char)).Silent := fun _ _ => rfl

/-- The blame of a sequence goes through its forms, as far as they match. -/
theorem blame_bind (p : Reader ρ α) (f : α → Reader ρ β) (s : List Char) (b : Blame ρ) :
    (p >>= f).blame s b =
      match p.read s with
      | none => p.blame s b
      | some (a, rest) => (f a).blame rest (p.blame s b) := rfl

theorem Silent.bind {p : Reader ρ α} {f : α → Reader ρ β} (hp : p.Silent)
    (hf : ∀ a, (f a).Silent) : (p >>= f).Silent := by
  intro s b
  rw [blame_bind, hp s b]
  split
  · rfl
  · exact hf _ _ _

theorem Silent.deepens {p : Reader ρ α} (h : p.Silent) : p.Deepens := fun s b =>
  Nat.le_of_eq (by rw [h s b])

theorem Silent.shallow {p : Reader ρ α} (h : p.Silent) : p.Shallow := fun s b => by
  rw [h s b]
  exact Nat.min_le_right _ _

/-- A run that may be empty always matches, so that its name is never blamed. -/
theorem silent_named_run (r : ρ) (p : Char → Bool) : (named r (run p)).Silent := fun _ _ => rfl

/-! ## Named rules -/

theorem blame_named_of_some {p : Reader ρ α} {s : List Char} {x : α × List Char}
    (h : p.read s = some x) (r : ρ) (b : Blame ρ) : (named r p).blame s b = p.blame s b := by
  unfold named
  dsimp only
  rw [h]

theorem rest_blame_named_of_none {p : Reader ρ α} {s : List Char} (h : p.read s = none) (r : ρ)
    (b : Blame ρ) : ((named r p).blame s b).rest = min s.length (p.blame s b).rest := by
  unfold named
  dsimp only
  rw [h]
  exact Blame.rest_charge _ _ _ _

theorem Deepens.named {p : Reader ρ α} (h : p.Deepens) (r : ρ) : (named r p).Deepens := by
  intro s b
  have hle := h s b
  cases hread : p.read s with
  | none =>
    rw [rest_blame_named_of_none hread]
    omega
  | some x =>
    rw [blame_named_of_some hread]
    exact hle

theorem Shallow.named {p : Reader ρ α} (h : p.Shallow) (r : ρ) : (named r p).Shallow := by
  intro s b
  have hge := h s b
  cases hread : p.read s with
  | none =>
    rw [rest_blame_named_of_none hread]
    omega
  | some x =>
    rw [blame_named_of_some hread]
    exact hge

/-- A rule of which nothing fails beyond the point where it is tried is blamed there, unless others
failed further in before. -/
theorem rest_blame_of_none {p : Reader ρ α} {r : ρ} {s : List Char}
    (hdeep : (named r p).Deepens) (hshallow : (named r p).Shallow) (h : (named r p).read s = none)
    (b : Blame ρ) : ((named r p).blame s b).rest = min s.length b.rest := by
  have hle := hdeep s b
  have hge := hshallow s b
  have hread : p.read s = none := h
  have hhere := rest_blame_named_of_none hread r b
  omega

/-! ## Sequence, choice and repetition -/

theorem Deepens.bind {p : Reader ρ α} {f : α → Reader ρ β} (hp : p.Deepens)
    (hf : ∀ a, (f a).Deepens) : (p >>= f).Deepens := by
  intro s b
  rw [blame_bind]
  split
  · exact hp s b
  · exact Nat.le_trans (hf _ _ _) (hp s b)

/-- What follows a form is tried further in, and may blame nothing there. -/
theorem Shallow.bind {p : Reader ρ α} {f : α → Reader ρ β} (hp : p.Shallow)
    (hf : ∀ a, (f a).Silent) : (p >>= f).Shallow := by
  intro s b
  rw [blame_bind]
  split
  · exact hp s b
  · rw [hf]
    exact hp s b

theorem Deepens.orElse {p q : Reader ρ α} (hp : p.Deepens) (hq : q.Deepens) :
    (p.orElse q).Deepens := by
  intro s b
  unfold Reader.orElse
  dsimp only
  split
  · exact hp s b
  · exact Nat.le_trans (hq _ _) (hp s b)

theorem Shallow.orElse {p q : Reader ρ α} (hp : p.Shallow) (hq : q.Shallow) :
    (p.orElse q).Shallow := by
  intro s b
  have hpge := hp s b
  have hqge := hq s (p.blame s b)
  unfold Reader.orElse
  dsimp only
  split
  · exact hpge
  · omega

theorem Deepens.opt {p : Reader ρ α} (h : p.Deepens) : (opt p).Deepens := h

theorem Deepens.many {p : Reader ρ α} (h : p.Deepens) : (many p).Deepens := by
  intro s b
  show (repeatBlame p _ s b).rest ≤ b.rest
  generalize s.length + 1 = n
  induction n generalizing s b with
  | zero => exact Nat.le_refl _
  | succ n ih =>
    rw [repeatBlame]
    split
    · exact h s b
    · exact Nat.le_trans (ih _ _) (h s b)

end Reader

open Reader

/-! ## Tokens -/

theorem silent_gap : gap.Silent :=
  (silent_run isGap).bind fun _ => silent_pure ()

/-- The blame behind a gap is that of what follows it. -/
theorem blame_gap_bind {α : Type} (p : TextReader α) (s : List Char) (b : Blame Rule) :
    (do gap; p : TextReader α).blame s b = p.blame (s.dropWhile isGap) b := rfl

theorem Reader.Deepens.spaced {α : Type} {p : TextReader α} (h : p.Deepens) :
    (spaced p).Deepens := by
  refine h.opt.bind fun first => ?_
  cases first with
  | none => exact (silent_pure []).deepens
  | some a =>
    exact (silent_gap.deepens.bind fun _ => h).many.bind fun _ => (silent_pure _).deepens

theorem silent_nameRun : (do return String.ofList (← run1 isNameChar) : TextReader String).Silent :=
  (silent_run1 isNameChar).bind fun _ => silent_pure _

theorem deepens_ident : ident.Deepens := silent_nameRun.deepens.named _

theorem shallow_ident : ident.Shallow := silent_nameRun.shallow.named _

theorem deepens_stateName : stateName.Deepens := deepens_ident.named _

theorem shallow_stateName : stateName.Shallow := shallow_ident.named _

theorem deepens_endOfInput : endOfInput.Deepens := silent_atEnd.deepens.named _

theorem shallow_endOfInput : endOfInput.Shallow := silent_atEnd.shallow.named _

theorem silent_quoted (q : Char) (r : Rule) :
    (do
      literal [q]
      let v ← named r (run (· != q))
      literal [q]
      return v : TextReader (List Char)).Silent :=
  (silent_literal _).bind fun _ => (silent_named_run r _).bind fun _ =>
    (silent_literal _).bind fun _ => silent_pure _

theorem deepens_value : value.Deepens := by
  refine Deepens.named (Deepens.bind ?_ fun _ => (silent_pure _).deepens) _
  exact ((silent_quoted _ _).deepens.named _).orElse <|
    ((silent_quoted _ _).deepens.named _).orElse ((silent_run1 _).deepens.named _)

theorem shallow_value : value.Shallow := by
  refine Shallow.named (Shallow.bind ?_ fun _ => silent_pure _) _
  exact ((silent_quoted _ _).shallow.named _).orElse <|
    ((silent_quoted _ _).shallow.named _).orElse ((silent_run1 _).shallow.named _)

/-! ## Table lines -/

theorem deepens_setting : setting.Deepens := by
  have hdigits : uint.Deepens := (silent_run1 _).deepens.named _
  have hword : ∀ (t : List Char) (on : Bool),
      (do literal t; return on : TextReader Bool).Deepens := fun t on =>
    ((silent_literal t).bind fun _ => silent_pure on).deepens
  have hbool : boolLit.Deepens := ((hword _ _).orElse (hword _ _)).named _
  have hwait : waitOpt.Deepens :=
    ((silent_literal _).deepens.bind fun _ => hdigits.bind fun _ =>
      (silent_pure _).deepens).named _
  have hmax : maxOpt.Deepens :=
    ((silent_literal _).deepens.bind fun _ => hdigits.bind fun _ =>
      (silent_pure _).deepens).named _
  have hexec : execOpt.Deepens :=
    ((silent_literal _).deepens.bind fun _ => hbool.bind fun _ => (silent_pure _).deepens).named _
  exact silent_ahead.deepens.bind fun _ => (hwait.orElse (hmax.orElse hexec)).bind fun _ =>
    (silent_pure _).deepens

theorem deepens_blockOpen : blockOpen.Deepens := by
  have hgap : gap.Deepens := silent_gap.deepens
  have hliteral : ∀ t : List Char, (literal t : TextReader Unit).Deepens := fun t =>
    (silent_literal t).deepens
  have hname : ∀ r : Rule, (named r ident).Deepens := fun r => deepens_ident.named r
  refine Deepens.named (deepens_stateName.bind fun _ => hgap.bind fun _ => ?_) _
  refine Deepens.bind (Deepens.opt ?_) fun _ => hgap.bind fun _ => ?_
  · exact (hliteral _).bind fun _ => hgap.bind fun _ => hname _
  refine Deepens.bind (Deepens.opt ?_) fun _ => hgap.bind fun _ => ?_
  · exact (hliteral _).bind fun _ => hgap.bind fun _ => (hname _).bind fun _ =>
      hgap.bind fun _ => (hliteral _).bind fun _ => (silent_pure _).deepens
  exact (hliteral _).bind fun _ => (silent_pure _).deepens

theorem deepens_assignment : assignment.Deepens :=
  (deepens_ident.bind fun _ => silent_gap.deepens.bind fun _ => (silent_literal _).deepens.bind
    fun _ => silent_gap.deepens.bind fun _ => deepens_value.bind fun _ =>
      (silent_pure _).deepens).named _

theorem deepens_transition : transition.Deepens :=
  (deepens_value.bind fun _ => silent_gap.deepens.bind fun _ => deepens_stateName.bind fun _ =>
    silent_gap.deepens.bind fun _ => deepens_setting.spaced.bind fun _ =>
      (silent_pure _).deepens).named _

theorem deepens_tableLine : tableLine.Deepens := by
  have hclose : blockClose.Deepens :=
    ((silent_literal _).bind fun _ => silent_pure _).deepens.named _
  have hform := hclose.orElse (deepens_blockOpen.orElse (deepens_assignment.orElse
    deepens_transition))
  exact (silent_gap.deepens.bind fun _ => hform.bind fun _ => silent_gap.deepens.bind fun _ =>
    deepens_endOfInput.bind fun _ => (silent_pure _).deepens).named _

/-- The point that is blamed for a mismatch lies in the text or at its end. -/
theorem rest_le_of_parse_error {α : Type} {p : TextReader α} (h : p.Deepens) {s : List Char}
    {b : Blame Rule} (hparse : p.parse s = .error b) : b.rest ≤ s.length := by
  unfold Reader.parse at hparse
  split at hparse
  · cases hparse
  · cases hparse
    exact h s ⟨s.length, []⟩

end Grammar
end TaskTable
