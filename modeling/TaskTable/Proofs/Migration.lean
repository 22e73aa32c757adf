import TaskTable.Migration

/-!
# What migration brings about

A migration that succeeds leaves every component at the version of the code or beyond it, and none
further behind than it was. A task that is there already it leaves as it is, without running a hook,
as long as the code is not at the last version that there is.
-/

namespace TaskTable

/-- Whether the data of each component is at the given version or beyond it. -/
def Task.IsUpTo (t : Task) (versions : List (String × Nat)) : Prop :=
  ∀ e ∈ versions, ∃ stored, t.versions.get? e.1 = some stored ∧ e.2 ≤ stored

namespace Migration

/-! ## Pending versions -/

/-- The last version that a component can have. No version can be counted after it. -/
def lastVersion : Nat :=
  Number.twoPow 32 - 1

/-- The versions that a component still has to be brought to, one after the other. -/
def pendingVersions (stored code : Nat) : List Nat :=
  List.range' (Number.next32 stored) (pendingCount stored code)

theorem next32_of_lt {n : Nat} (h : n < lastVersion) : Number.next32 n = n + 1 :=
  Nat.mod_eq_of_lt (by unfold lastVersion at h; omega)

theorem next32_le (n : Nat) : Number.next32 n ≤ n + 1 :=
  Nat.mod_le _ _

/-- A component that is up to the code has no version pending, unless it is at the last one. -/
theorem pendingCount_eq_zero {stored code : Nat} (hle : code ≤ stored)
    (hcode : code < lastVersion) : pendingCount stored code = 0 := by
  unfold pendingCount
  split
  · rfl
  · next hge =>
    obtain rfl : stored = code := Nat.le_antisymm (Nat.not_lt.1 hge) hle
    rw [next32_of_lt hcode, Nat.sub_self]

/-- Where versions are pending, the last of them is that of the code. -/
theorem pendingCount_cases (stored code : Nat) :
    (pendingCount stored code = 0 ∧ code ≤ stored) ∨
      (stored ≤ code ∧
        ∃ n, pendingCount stored code = n + 1 ∧ Number.next32 stored + n = code) := by
  have hnext := next32_le stored
  unfold pendingCount
  split
  · next hlt => exact .inl ⟨rfl, Nat.le_of_lt hlt⟩
  · next hge =>
    have hle : stored ≤ code := Nat.not_lt.1 hge
    rcases Nat.lt_or_ge code (Number.next32 stored) with hlt | hle'
    · exact .inl ⟨by omega, by omega⟩
    · exact .inr ⟨hle, code - Number.next32 stored, by omega, by omega⟩

/-! ## What requests do -/

theorem resetStates_eq (table : Table) (states : List String) (t : Task) :
    ∃ counts, (resetStates table states t).1 = { t with counts } := by
  induction states generalizing t with
  | nil => exact ⟨t.counts, rfl⟩
  | cons state rest ih =>
    rw [resetStates, Task.clearStateCounts]
    cases table.block state with
    | error e => exact ⟨t.counts, rfl⟩
    | ok block => exact ih _

theorem resetCounts_eq (table : Table) (counts : List (String × String)) (t : Task) :
    ∃ left, (resetCounts table counts t).1 = { t with counts := left } := by
  induction counts generalizing t with
  | nil => exact ⟨t.counts, rfl⟩
  | cons e rest ih =>
    obtain ⟨state, value⟩ := e
    rw [resetCounts, Task.clearCount]
    cases table.block state with
    | error e => exact ⟨t.counts, rfl⟩
    | ok block =>
      dsimp only [bind, Except.bind, pure, Except.pure]
      cases block.transition? value <|> block.transition? Names.wildcard with
      | none => exact ih _
      | some transition => exact ih _

theorem resets_eq (table : Table) (r : Requests) (t : Task) :
    ∃ counts, (apply.resets table r t).1 = { t with counts } := by
  unfold apply.resets
  obtain ⟨cleared, hcleared⟩ :
      ∃ counts, (if r.resetAll then { t with counts := .empty } else t) = { t with counts } := by
    split
    · exact ⟨_, rfl⟩
    · exact ⟨t.counts, rfl⟩
  rw [hcleared]
  obtain ⟨left, hleft⟩ := resetStates_eq table r.resetStates { t with counts := cleared }
  dsimp only
  split
  · next t' h =>
    obtain ⟨last, hlast⟩ := resetCounts_eq table r.resetCounts t'
    rw [h] at hleft
    exact ⟨last, hlast.trans (by rw [show t' = _ from hleft])⟩
  · exact ⟨left, hleft⟩

/-- What an update asks for starts the task over or moves it, and clears counts. -/
theorem apply_eq (table : Table) (t : Task) (r : Requests) :
    (apply table t r).1 = restart t ∨ ∃ counts, (apply table t r).1 = { t with counts } ∨
      ∃ state, (apply table t r).1 = { moveTo t state with counts } := by
  unfold apply
  split
  · exact .inl rfl
  · right
    split
    · next state _ =>
      split
      · obtain ⟨counts, h⟩ := resets_eq table r (moveTo t state)
        exact ⟨counts, .inr ⟨state, h⟩⟩
      · exact ⟨t.counts, .inl rfl⟩
    · obtain ⟨counts, h⟩ := resets_eq table r t
      exact ⟨counts, .inl h⟩

/-- What an update asks for does not change the versions of the data. -/
theorem versions_apply (table : Table) (t : Task) (r : Requests) :
    (apply table t r).1.versions = t.versions := by
  rcases apply_eq table t r with h | ⟨counts, h | ⟨state, h⟩⟩ <;> rw [h] <;> rfl

/-! ## Hooks -/

variable {σ : Type} {h : Handler σ} {table : Table}

/-- Hooks that succeed leave their component at the last of their versions, and no other changed. -/
theorem runHooks_versions {component : String} {count version : Nat} {m m' : σ} {t t' : Task}
    (hrun : runHooks h table component count version m t = (m', .ok t')) :
    t'.versions.get? component =
        (if count = 0 then t.versions.get? component else some (version + (count - 1))) ∧
      ∀ other ≠ component, t'.versions.get? other = t.versions.get? other := by
  induction count generalizing version m t with
  | zero =>
    cases hrun
    exact ⟨rfl, fun _ _ => rfl⟩
  | succ count ih =>
    rw [runHooks] at hrun
    split at hrun
    · cases hrun
    · cases hrun
    · next m₁ requests _ =>
      split at hrun
      · cases hrun
      · next t₁ happly =>
        obtain ⟨hlast, hothers⟩ := ih hrun
        have hversions : t₁.versions = t.versions := by
          rw [← versions_apply table t requests, happly]
        refine ⟨?_, fun other hne => ?_⟩
        · rw [hlast, SortedMap.get?_insert_self, if_neg (Nat.succ_ne_zero count)]
          split
          · next hzero =>
            rw [hzero]
            rfl
          · next hcount => rw [show version + 1 + (count - 1) = version + (count + 1 - 1) by omega]
        · rw [hothers other hne, SortedMap.get?_insert_of_ne _ hne, hversions]

/-- What requests and versions keep, hooks keep. -/
theorem runHooks_keeps {P : Task → Prop} (happly : ∀ t r, P t → P (apply table t r).1)
    (hversions : ∀ t versions, P t → P { t with versions }) {component : String}
    {count version : Nat} {m m' : σ} {t t' : Task}
    (hrun : runHooks h table component count version m t = (m', .ok t')) (ht : P t) : P t' := by
  induction count generalizing version m t with
  | zero =>
    cases hrun
    exact ht
  | succ count ih =>
    rw [runHooks] at hrun
    split at hrun
    · cases hrun
    · cases hrun
    · next requests _ =>
      split at hrun
      · cases hrun
      · next t₁ h₁ =>
        have ht₁ : P t₁ := by
          have happlied := happly t requests ht
          rwa [h₁] at happlied
        exact ih hrun (hversions _ _ ht₁)

/-! ## Migrations -/

/-- What requests and versions keep, a migration keeps. -/
theorem migrate_keeps {P : Task → Prop} (happly : ∀ t r, P t → P (apply table t r).1)
    (hversions : ∀ t versions, P t → P { t with versions }) {es : List (String × Nat)} {m m' : σ}
    {t t' : Task} (hrun : migrate h table es m t = (m', .ok t')) (ht : P t) : P t' := by
  induction es generalizing m t with
  | nil =>
    cases hrun
    exact ht
  | cons e rest ih =>
    obtain ⟨component, code⟩ := e
    rw [migrate] at hrun
    split at hrun
    · exact ih hrun (hversions _ _ ht)
    · split at hrun
      · next hhooks => exact ih hrun (runHooks_keeps happly hversions hhooks ht)
      · next hfailed => exact absurd hrun (hfailed _ _)

/-- The hooks that a component has pending leave it at the version of the code, if it was behind. -/
theorem runHooks_pending {component : String} {stored code : Nat} {m m' : σ} {t t' : Task}
    (hstored : t.versions.get? component = some stored)
    (hrun : runHooks h table component (pendingCount stored code) (Number.next32 stored) m t =
      (m', .ok t')) :
    t'.versions.get? component = some (max stored code) := by
  rw [(runHooks_versions hrun).1, hstored]
  rcases pendingCount_cases stored code with ⟨hzero, hle⟩ | ⟨hle, n, hcount, hlast⟩
  · rw [if_pos hzero, Nat.max_eq_left hle]
  · rw [hcount, if_neg (Nat.succ_ne_zero n), Nat.add_sub_cancel, hlast, Nat.max_eq_right hle]

/-- A migration takes no version back, and brings every component up to the code. -/
theorem migrate_versions {es : List (String × Nat)} {m m' : σ} {t t' : Task}
    (hrun : migrate h table es m t = (m', .ok t')) :
    t'.IsUpTo es ∧ ∀ component stored, t.versions.get? component = some stored →
      ∃ stored', t'.versions.get? component = some stored' ∧ stored ≤ stored' := by
  induction es generalizing m t with
  | nil =>
    cases hrun
    exact ⟨by simp [Task.IsUpTo], fun _ stored hstored => ⟨stored, hstored, Nat.le_refl stored⟩⟩
  | cons e rest ih =>
    obtain ⟨component, code⟩ := e
    -- it is enough that the component is brought up first and all others stay
    suffices hfirst : ∃ (m₁ : σ) (t₁ : Task), migrate h table rest m₁ t₁ = (m', .ok t') ∧
        (∃ stored, t₁.versions.get? component = some stored ∧ code ≤ stored) ∧
          ∀ other stored, t.versions.get? other = some stored →
            ∃ stored', t₁.versions.get? other = some stored' ∧ stored ≤ stored' by
      obtain ⟨m₁, t₁, hrest, ⟨stored, hstored, hle⟩, hkept⟩ := hfirst
      obtain ⟨hup, hgrown⟩ := ih hrest
      refine ⟨?_, fun other stored hother => ?_⟩
      · intro e he
        rcases List.mem_cons.1 he with rfl | he
        · obtain ⟨stored', hstored', hle'⟩ := hgrown component stored hstored
          exact ⟨stored', hstored', Nat.le_trans hle hle'⟩
        · exact hup e he
      · obtain ⟨stored₁, hstored₁, hle₁⟩ := hkept other stored hother
        obtain ⟨stored', hstored', hle'⟩ := hgrown other stored₁ hstored₁
        exact ⟨stored', hstored', Nat.le_trans hle₁ hle'⟩
    rw [migrate] at hrun
    split at hrun
    · -- the component was not there
      next hnone =>
      refine ⟨_, _, hrun, ⟨code, SortedMap.get?_insert_self _ _ _, Nat.le_refl code⟩, ?_⟩
      intro other stored hother
      have hne : other ≠ component := by
        rintro rfl
        cases hnone.symm.trans hother
      exact ⟨stored, by rw [SortedMap.get?_insert_of_ne _ hne, hother], Nat.le_refl stored⟩
    · next stored hstored =>
      split at hrun
      · next m₁ t₁ hhooks =>
        have hcomponent := runHooks_pending hstored hhooks
        refine ⟨m₁, t₁, hrun, ⟨_, hcomponent, Nat.le_max_right _ _⟩, ?_⟩
        intro other before hother
        by_cases hne : other = component
        · subst hne
          cases hstored.symm.trans hother
          exact ⟨_, hcomponent, Nat.le_max_left _ _⟩
        · exact ⟨before, by rw [(runHooks_versions hhooks).2 other hne, hother], Nat.le_refl _⟩
      · next hfailed => exact absurd hrun (hfailed _ _)

/-- For components that are up to the code no hook runs, if none of them is at the last version. -/
theorem migrate_append {before after : List (String × Nat)} {t : Task} (hup : t.IsUpTo before)
    (hbelow : ∀ e ∈ before, e.2 < lastVersion) (m : σ) :
    migrate h table (before ++ after) m t = migrate h table after m t := by
  induction before with
  | nil => rfl
  | cons e before ih =>
    obtain ⟨component, code⟩ := e
    obtain ⟨stored, hstored, hle⟩ := hup (component, code) List.mem_cons_self
    have hnone : pendingCount stored code = 0 :=
      pendingCount_eq_zero hle (hbelow (component, code) List.mem_cons_self)
    rw [List.cons_append, migrate, hstored]
    simp only [hnone, runHooks]
    exact ih (fun e he => hup e (List.mem_cons_of_mem _ he))
      fun e he => hbelow e (List.mem_cons_of_mem _ he)

/-- A task that is up to the code stays as it is, and no hook runs, if no component of the code is
at the last version. -/
theorem migrate_of_isUpTo {es : List (String × Nat)} {t : Task} (hup : t.IsUpTo es)
    (hbelow : ∀ e ∈ es, e.2 < lastVersion) (m : σ) : migrate h table es m t = (m, .ok t) := by
  rw [← es.append_nil, migrate_append hup hbelow]
  rfl

end Migration
end TaskTable
