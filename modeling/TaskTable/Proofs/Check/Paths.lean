import Mathlib.Logic.Relation
import TaskTable.Proofs.Check.Clean

/-!
# Paths of a table

What a check finds out about paths: the states that are found by walking edges backwards from
`finish` have a path to it, so in a table without an issue with paths every block has one.
-/

namespace TaskTable

/-- A transition of one state leads to another. -/
def Table.Leads (t : Table) (state target : String) : Prop :=
  ∃ b ∈ t.blocks, b.state = state ∧ ∃ e ∈ b.transitions, e.target = target

namespace Check

/-- The sources of a state are the states with a transition to it. -/
theorem mem_sourcesOf {t : Table} {state target : String} :
    state ∈ sourcesOf t target ↔ t.Leads state target := by
  unfold sourcesOf Table.Leads
  rw [List.mem_map]
  refine exists_congr fun b => ?_
  rw [List.mem_filter, List.any_eq_true, and_assoc, and_congr_right_iff]
  intro _
  rw [and_comm]
  simp

/-- Every state found by walking backwards has a path to one of those walked back from. -/
theorem walkBack_sound {t : Table} {goal : String} {fuel : Nat} {pending reached : List String}
    (hpending : pending ⊆ reached)
    (hreached : ∀ s ∈ reached, Relation.ReflTransGen t.Leads s goal) :
    ∀ s ∈ walkBack t fuel pending reached, Relation.ReflTransGen t.Leads s goal := by
  induction fuel generalizing pending reached with
  | zero => exact hreached
  | succ fuel ih =>
    cases pending with
    | nil => exact hreached
    | cons s pending =>
      obtain ⟨hs, hpending⟩ := List.cons_subset.1 hpending
      rw [walkBack]
      refine ih (List.append_subset.2 ⟨?_, List.subset_append_right _ _⟩) fun s' hs' => ?_
      · exact fun _ h => List.mem_append_left _ (hpending h)
      · rcases List.mem_append.1 hs' with hs' | hs'
        · exact hreached s' hs'
        · -- what is new leads to the state that was looked at
          rw [List.mem_eraseDups, List.mem_filter, mem_sourcesOf] at hs'
          exact .head hs'.1 (hreached s hs)

/-- If no issue with paths is reported, every block has a path to `finish`. -/
theorem path_of_clean {t : Table} {c : Option Catalog}
    (h : (run t c).ofKind .noPathToFinish = []) {b : Block} (hb : b ∈ t.blocks) :
    Relation.ReflTransGen t.Leads b.state Names.finish := by
  by_contra hpath
  have hunreached : b.state ∉ reachingFinish t := by
    refine fun hmem => hpath (walkBack_sound (fun _ h => h) ?_ _ hmem)
    intro s hs
    rw [List.mem_singleton.1 hs]
  have hfound : b ∈ t.blocks.filter fun b => !(reachingFinish t).contains b.state :=
    List.mem_filter.2 ⟨hb, by simpa using hunreached⟩
  have hissue : _ ∈ reachabilityIssues t :=
    List.mem_append_right _ (List.mem_map_of_mem hfound)
  exact kind_ne_of_clean h (mem_issues (.inr (.inl hissue))) rfl

end Check
end TaskTable
