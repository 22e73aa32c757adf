import TaskTable.Proofs.Migration.Hooks

/-!
# Migrations that start the task over

A migration whose last hook asks for a restart leaves the stored task as `restart` does, apart from
the versions: whatever the hooks before asked for is undone (`migrate_restart`).
-/

namespace TaskTable
namespace Migration

variable {σ : Type} {h : Handler σ} {table : Table}

/-! ## Hooks one after another -/

namespace Ran

variable {hooks more : List Hook} {m m' : σ} {current current' : Option String}
  {calls : List (String × Option String)}

/-- Hooks that are all gone along with can be parted anywhere. -/
theorem split (hran : Ran h table (hooks ++ more) m current calls m' (.ok current')) :
    ∃ first m₁ current₁ rest, Ran h table hooks m current first m₁ (.ok current₁) ∧
      Ran h table more m₁ current₁ rest m' (.ok current') := by
  induction hooks generalizing m current calls with
  | nil => exact ⟨[], m, current, calls, .done m current, hran⟩
  | cons k hooks ih =>
    cases hran with
    | met answered known further =>
      obtain ⟨first, m₁, current₁, rest, hfirst, hrest⟩ := ih further
      exact ⟨_, m₁, current₁, rest, .met answered known hfirst, hrest⟩

end Ran

/-- A hook whose requests can be met makes way for the next one. -/
theorem runHooks_met {component : String} {count version : Nat} {m m' : σ} {t : Task}
    {r : Requests}
    (answered : h.update m (hookName component version) t.current table = (m', some (.ok r)))
    (met : (apply table t r).2 = none) :
    runHooks h table component (count + 1) version m t =
      runHooks h table component count (version + 1) m' { (apply table t r).1 with
        versions := (apply table t r).1.versions.insert component version } := by
  rw [runHooks, answered]
  dsimp only
  generalize apply table t r = applied at met ⊢
  obtain ⟨t₁, e⟩ := applied
  cases met
  rfl

/-- Hooks of a component that can be gone along with make way for more. -/
theorem runHooks_of_ran {component : String} {count version : Nat} {m m' : σ} {t : Task}
    {calls : List (String × Option String)} {current : Option String}
    (hran : Ran h table ((List.range' version count).map (⟨component, ·⟩)) m t.current calls m'
      (.ok current)) :
    ∃ t', t'.current = current ∧ ∀ more,
      runHooks h table component (count + more) version m t =
        runHooks h table component more (version + count) m' t' := by
  induction count generalizing version m t calls with
  | zero =>
    cases hran
    exact ⟨t, rfl, fun more => by rw [Nat.zero_add, Nat.add_zero]⟩
  | succ count ih =>
    rw [List.range'_succ, List.map_cons] at hran
    cases hran with
    | @met _ _ _ _ _ _ r _ _ answered known further =>
      have hmet : (apply table t r).2 = none := by rw [apply_error, known, Option.map_none]
      rw [← current_apply hmet] at further
      obtain ⟨t', hcurrent, hrest⟩ := ih (t := { (apply table t r).1 with
        versions := (apply table t r).1.versions.insert component version }) further
      refine ⟨t', hcurrent, fun more => ?_⟩
      rw [Nat.add_right_comm, runHooks_met answered hmet, hrest more, Nat.add_assoc version,
        Nat.add_comm 1]

/-! ## Starting over -/

/-- Whether a task comes to the same as another one if both start over, apart from the versions of
their data. -/
def SameOver (t t' : Task) : Prop :=
  ∃ versions, restart t' = { restart t with versions }

theorem sameOver_apply {t t' : Task} (r : Requests) (hsame : SameOver t t') :
    SameOver t (apply table t' r).1 := by
  obtain ⟨versions, heq⟩ := hsame
  refine ⟨versions, Eq.trans ?_ heq⟩
  rcases apply_eq table t' r with h | ⟨counts, h | ⟨state, h⟩⟩ <;> rw [h] <;> rfl

theorem sameOver_setVersions {t t' : Task} (versions : SortedMap String Nat)
    (hsame : SameOver t t') : SameOver t { t' with versions } := by
  obtain ⟨_, heq⟩ := hsame
  refine ⟨versions, ?_⟩
  show { restart t' with versions } = _
  rw [heq]

theorem sameOver_runHooks {component : String} {count version : Nat} {m m' : σ} {t t' : Task}
    (hrun : runHooks h table component count version m t = (m', .ok t')) : SameOver t t' :=
  runHooks_keeps (fun _ => sameOver_apply) (fun _ => sameOver_setVersions) hrun ⟨t.versions, rfl⟩

/-- Hooks of a component that can be gone along with, the last of which asks for a restart, start
the task over. -/
theorem runHooks_restart {component : String} {count version : Nat} {before : List Hook} {k : Hook}
    {m m₁ m' : σ} {t : Task} {calls : List (String × Option String)} {current : Option String}
    {r : Requests} (hplan : (List.range' version count).map (⟨component, ·⟩) = before ++ [k])
    (hran : Ran h table before m t.current calls m₁ (.ok current))
    (hlast : h.update m₁ k.name current table = (m', some (.ok r))) (hrestart : r.restart = true) :
    ∃ left, runHooks h table component count version m t =
      (m', .ok { restart t with versions := left }) := by
  obtain ⟨earlier, rfl⟩ : ∃ n, count = n + 1 := by
    refine Nat.exists_eq_succ_of_ne_zero ?_
    rintro rfl
    simp at hplan
  rw [List.range'_1_concat, List.map_append, List.map_singleton] at hplan
  obtain ⟨rfl, hk⟩ := List.append_inj' hplan rfl
  cases hk
  -- the hooks before the last one lead to some task that comes to the same once it starts over
  obtain ⟨t₁, rfl, hmore⟩ := runHooks_of_ran hran
  obtain ⟨versions₁, hsame⟩ : SameOver t t₁ := sameOver_runHooks (hmore 0)
  have happly : apply table t₁ r = (restart t₁, none) := by rw [apply, if_pos hrestart]
  rw [hmore, runHooks_met hlast (by rw [happly]), happly, runHooks, hsame]
  exact ⟨_, rfl⟩

/-- A migration without hooks to run sets versions down and nothing else. -/
theorem migrate_of_plan_eq_nil {es : List (String × Nat)} (hdistinct : es.Pairwise (·.1 ≠ ·.1))
    {t : Task} (hplan : plan t.versions es = []) (m : σ) :
    ∃ versions, migrate h table es m t = (m, .ok { t with versions }) := by
  induction es generalizing t with
  | nil => exact ⟨t.versions, rfl⟩
  | cons e rest ih =>
    obtain ⟨component, code⟩ := e
    obtain ⟨hother, hrest⟩ := List.pairwise_cons.1 hdistinct
    rw [plan, List.flatMap_cons, List.append_eq_nil_iff] at hplan
    obtain ⟨hfirst, hlater⟩ := hplan
    rw [migrate]
    cases hstored : t.versions.get? component with
    | none =>
      have hnext : plan (t.versions.insert component code) rest = [] := by
        rw [← hlater]
        exact plan_congr fun e he => SortedMap.get?_insert_of_ne _ (hother e he).symm _
      exact ih hrest (t := { t with versions := t.versions.insert component code }) hnext
    | some stored =>
      have hnone : pendingCount stored code = 0 := by
        simpa [hstored, pendingVersions] using hfirst
      simp only [hnone, runHooks]
      exact ih hrest hlater

/-- A migration whose hooks can be gone along with, the last of them asking for a restart, starts
the task over, whatever it asks for besides and the hooks before it have asked for. -/
theorem migrate_restart {es : List (String × Nat)} (hdistinct : es.Pairwise (·.1 ≠ ·.1))
    {before : List Hook} {k : Hook} {m m₁ m' : σ} {t : Task}
    {calls : List (String × Option String)} {current : Option String} {r : Requests}
    (hplan : plan t.versions es = before ++ [k])
    (hran : Ran h table before m t.current calls m₁ (.ok current))
    (hlast : h.update m₁ k.name current table = (m', some (.ok r))) (hrestart : r.restart = true) :
    ∃ versions, migrate h table es m t = (m', .ok { restart t with versions }) := by
  induction es generalizing before m t calls with
  | nil =>
    rw [plan, List.flatMap_nil] at hplan
    simp at hplan
  | cons e rest ih =>
    obtain ⟨component, code⟩ := e
    obtain ⟨hother, hrest⟩ := List.pairwise_cons.1 hdistinct
    have hnext : ∀ t₁ : Task,
        (∀ other ≠ component, t₁.versions.get? other = t.versions.get? other) →
          plan t₁.versions rest = plan t.versions rest := fun t₁ hsame =>
      plan_congr fun e he => hsame e.1 (hother e he).symm
    rw [plan, List.flatMap_cons] at hplan
    rw [migrate]
    cases hstored : t.versions.get? component with
    | none =>
      rw [hstored] at hplan
      refine ih hrest (t := { t with versions := t.versions.insert component code }) ?_ hran
      rw [hnext _ fun other hne => SortedMap.get?_insert_of_ne _ hne _]
      exact hplan
    | some stored =>
      rw [hstored] at hplan
      dsimp only at hplan ⊢
      rcases List.eq_nil_or_concat (plan t.versions rest) with hnil | ⟨later, k', hlater⟩
      · -- the last hook is one of this component
        rw [plan] at hnil
        rw [hnil, List.append_nil] at hplan
        obtain ⟨left, hrun⟩ := runHooks_restart hplan hran hlast hrestart
        rw [hrun]
        refine migrate_of_plan_eq_nil hrest ?_ m'
        rw [hnext _ fun other hne => ?_]
        · exact hnil
        · have hkept := (runHooks_versions hrun).2 other hne
          exact hkept
      · -- the last hook is one of a later component
        rw [plan] at hlater
        rw [hlater, List.concat_eq_append, ← List.append_assoc] at hplan
        obtain ⟨hbefore, hk⟩ := List.append_inj' hplan rfl
        cases hk
        rw [← hbefore] at hran
        obtain ⟨first, m₂, current₂, others, hfirst, hothers⟩ := hran.split
        obtain ⟨t₂, rfl, hmore⟩ := runHooks_of_ran hfirst
        have hrun := hmore 0
        rw [Nat.add_zero, runHooks] at hrun
        obtain ⟨versions₂, hsame⟩ : SameOver t t₂ := sameOver_runHooks hrun
        have hplan₂ : plan t₂.versions rest = later ++ [k] := by
          rw [hnext _ (runHooks_versions hrun).2, plan, hlater, List.concat_eq_append]
        obtain ⟨versions, hmigrate⟩ := ih hrest hplan₂ hothers
        rw [hrun]
        refine ⟨versions, hmigrate.trans ?_⟩
        rw [hsame]

end Migration
end TaskTable
