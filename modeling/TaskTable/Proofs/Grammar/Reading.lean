import TaskTable.Grammar.Reader

/-!
# What readers read

The equations of the readers' first half, `read`, apart from blame, and what a reader can give at
all (`Gives`), which passes through sequence, choice and repetition.
-/

namespace TaskTable
namespace Grammar
namespace Reader

variable {ρ α β : Type}

/-! ## Equations -/

@[simp] theorem read_pure (a : α) (s : List Char) : (pure a : Reader ρ α).read s = some (a, s) :=
  rfl

/-- A sequence reads its first form, and then the next one from where that ended. -/
@[simp] theorem read_bind (p : Reader ρ α) (f : α → Reader ρ β) (s : List Char) :
    (p >>= f).read s = (p.read s).bind fun r => (f r.1).read r.2 := by
  show (Reader.bind p f).read s = _
  unfold Reader.bind
  dsimp only
  cases p.read s <;> rfl

@[simp] theorem read_named (r : ρ) (p : Reader ρ α) (s : List Char) :
    (named r p).read s = p.read s := rfl

@[simp] theorem read_orElse (p q : Reader ρ α) (s : List Char) :
    (p.orElse q).read s = (p.read s).or (q.read s) := by
  unfold Reader.orElse
  dsimp only
  cases p.read s <;> rfl

@[simp] theorem read_opt (p : Reader ρ α) (s : List Char) :
    (opt p).read s = some ((p.read s).elim (none, s) fun r => (some r.1, r.2)) := by
  unfold opt
  dsimp only
  cases p.read s <;> rfl

@[simp] theorem read_run (p : Char → Bool) (s : List Char) :
    (run p : Reader ρ (List Char)).read s = some (s.takeWhile p, s.dropWhile p) := rfl

/-! ## Properties of what is read -/

/-- Everything that a reader can read has a property. -/
def Gives (p : Reader ρ α) (P : α → Prop) : Prop :=
  ∀ s a rest, p.read s = some (a, rest) → P a

theorem gives_true (p : Reader ρ α) : p.Gives fun _ => True :=
  fun _ _ _ _ => trivial

theorem gives_pure {a : α} {P : α → Prop} (h : P a) : (pure a : Reader ρ α).Gives P := by
  rintro s b rest ⟨rfl⟩
  exact h

/-- What a sequence gives is what its last form gives, knowing what the first one gave. -/
theorem Gives.bind {p : Reader ρ α} {f : α → Reader ρ β} {P : α → Prop} {Q : β → Prop}
    (hp : p.Gives P) (hf : ∀ a, P a → (f a).Gives Q) : (p >>= f).Gives Q := by
  intro s b rest h
  rw [read_bind, Option.bind_eq_some_iff] at h
  obtain ⟨⟨a, r⟩, hr, h⟩ := h
  exact hf a (hp s a r hr) r b rest h

theorem Gives.named {p : Reader ρ α} {P : α → Prop} (r : ρ) (h : p.Gives P) : (named r p).Gives P :=
  h

theorem Gives.orElse {p q : Reader ρ α} {P : α → Prop} (hp : p.Gives P) (hq : q.Gives P) :
    (p.orElse q).Gives P := by
  intro s a rest h
  rw [read_orElse, Option.or_eq_some_iff] at h
  rcases h with h | ⟨_, h⟩
  · exact hp s a rest h
  · exact hq s a rest h

theorem Gives.opt {p : Reader ρ α} {P : α → Prop} (h : p.Gives P) :
    (opt p).Gives fun o => ∀ a, o = some a → P a := by
  intro s o rest ho a ha
  rw [read_opt, Option.some.injEq] at ho
  cases hp : p.read s with
  | none =>
    rw [hp] at ho
    cases ho
    cases ha
  | some r =>
    rw [hp] at ho
    cases ho
    cases ha
    exact h s _ _ hp

/-- A run of characters of a kind holds no others, and is not empty. -/
theorem gives_run1 (p : Char → Bool) :
    (run1 p : Reader ρ (List Char)).Gives fun cs => cs ≠ [] ∧ ∀ c ∈ cs, p c = true := by
  intro s cs rest h
  unfold run1 at h
  dsimp only at h
  split at h
  · cases h
  · next c cs' htake =>
    cases h
    refine ⟨by simp, fun x hx => ?_⟩
    rw [← htake] at hx
    exact List.all_eq_true.1 List.all_takeWhile x hx

end Reader
end Grammar
end TaskTable
