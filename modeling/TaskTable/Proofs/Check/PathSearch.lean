import Mathlib.Data.Finset.Card
import Mathlib.Logic.Function.Iterate
import TaskTable.Proofs.Check.Kinds
import TaskTable.Proofs.Check.Paths

/-!
# The search for paths

`path_check_exact`: the states reported as having no path to `finish` are those of the blocks from
which no chain of transitions leads there, in the order of the blocks. The walk back from `finish`
is seen as a loop whose turns are looks at one pending state (`look`); each look uses up one unit of
`unwalked`, so that the walk ends with nothing pending, and then it has missed no source.

The specification of the search is a depth-first search from each state on its own, in which states
that are on the path already are dead ends (`findsFinish`). It finds `finish` exactly where a path
leads there, as a path that comes back to a state can be cut short.
-/

namespace TaskTable
namespace Check

/-! ## Walking backwards -/

/-- The states with a transition to `state` that were not reached before, each once. -/
def newSources (t : Table) (reached : List String) (state : String) : List String :=
  ((sourcesOf t state).filter fun s => !reached.contains s).eraseDups

/-- One look of the walk: what leads to the first pending state becomes pending itself, unless it
was reached before. -/
def look (t : Table) : List String × List String → List String × List String
  | ([], reached) => ([], reached)
  | (s :: pending, reached) =>
    (pending ++ newSources t reached s, reached ++ newSources t reached s)

/-- Walking backwards is taking looks. -/
theorem walkBack_eq (t : Table) (fuel : Nat) (pending reached : List String) :
    walkBack t fuel pending reached = ((look t)^[fuel] (pending, reached)).2 := by
  induction fuel generalizing pending reached with
  | zero => rfl
  | succ fuel ih =>
    cases pending with
    | nil => rw [Function.iterate_fixed (by rfl)]; rfl
    | cons s pending => exact ih _ _

/-- A source is new if it was not reached before. -/
theorem mem_newSources {t : Table} {reached : List String} {state s : String} :
    s ∈ newSources t reached state ↔ t.Leads s state ∧ s ∉ reached := by
  unfold newSources
  rw [List.mem_eraseDups, List.mem_filter, mem_sourcesOf]
  simp

/-! ### The walk ends -/

theorem nodup_eraseDups {α : Type} [BEq α] [LawfulBEq α] (l : List α) : l.eraseDups.Nodup := by
  induction hn : l.length using Nat.strong_induction_on generalizing l with
  | _ n ih =>
    subst hn
    cases l with
    | nil => exact List.nodup_nil
    | cons a l =>
      rw [List.eraseDups_cons]
      refine List.nodup_cons.2 ⟨fun h => ?_, ih _ ?_ _ rfl⟩
      · simp at h
      · exact Nat.lt_succ_of_le (List.length_filter_le _ l)

/-- How many looks a walk can still take: one at each pending state and one at each state of a block
that is not reached yet. -/
def unwalked (t : Table) (w : List String × List String) : Nat :=
  w.1.length + (t.states.toFinset \ w.2.toFinset).card

/-- A look uses up one unit of `unwalked`: what becomes pending is no longer unreached. -/
theorem unwalked_look (t : Table) (s : String) (pending reached : List String) :
    unwalked t (look t (s :: pending, reached)) + 1 = unwalked t (s :: pending, reached) := by
  have hsub : (newSources t reached s).toFinset ⊆ t.states.toFinset \ reached.toFinset := by
    intro x hx
    obtain ⟨⟨b, hb, rfl, -⟩, hx⟩ := mem_newSources.1 (List.mem_toFinset.1 hx)
    rw [Finset.mem_sdiff, List.mem_toFinset, List.mem_toFinset]
    exact ⟨List.mem_map_of_mem hb, hx⟩
  have hcard : (newSources t reached s).toFinset.card = (newSources t reached s).length :=
    List.toFinset_card_of_nodup (nodup_eraseDups _)
  have hle := Finset.card_le_card hsub
  have hrest : t.states.toFinset \ (reached ++ newSources t reached s).toFinset =
      (t.states.toFinset \ reached.toFinset) \ (newSources t reached s).toFinset := by
    rw [List.toFinset_append, sdiff_sdiff_left]
    rfl
  show (pending ++ newSources t reached s).length +
    (t.states.toFinset \ (reached ++ newSources t reached s).toFinset).card + 1 =
    pending.length + 1 + (t.states.toFinset \ reached.toFinset).card
  rw [hrest, Finset.card_sdiff_of_subset hsub, List.length_append]
  omega

/-- With one look for each unit of `unwalked`, nothing is left pending. -/
theorem pending_nil_of_unwalked_le {t : Table} {w : List String × List String} {fuel : Nat}
    (h : unwalked t w ≤ fuel) : ((look t)^[fuel] w).1 = [] := by
  induction fuel generalizing w with
  | zero =>
    refine List.length_eq_zero_iff.1 ?_
    unfold unwalked at h
    show w.1.length = 0
    omega
  | succ fuel ih =>
    obtain ⟨pending, reached⟩ := w
    cases pending with
    | nil => rw [Function.iterate_fixed (by rfl)]
    | cons s pending =>
      refine ih ?_
      have hlook := unwalked_look t s pending reached
      omega

/-- What the search from `finish` can take is one look for each block and one for `finish`. -/
theorem unwalked_finish (t : Table) :
    unwalked t ([Names.finish], [Names.finish]) ≤ t.blocks.length + 1 := by
  have hstates : (t.states.toFinset \ [Names.finish].toFinset).card ≤ t.states.length :=
    (Finset.card_le_card Finset.sdiff_subset).trans (List.toFinset_card_le _)
  rw [Table.states, List.length_map] at hstates
  show 1 + (t.states.toFinset \ [Names.finish].toFinset).card ≤ _
  rw [Table.states]
  omega

/-! ### The walk misses nothing -/

/-- Every state that is reached was looked at, or it is pending. -/
def Looked (t : Table) (w : List String × List String) : Prop :=
  ∀ s ∈ w.2, s ∈ w.1 ∨ ∀ s', t.Leads s' s → s' ∈ w.2

theorem Looked.look {t : Table} {w : List String × List String} (h : Looked t w) :
    Looked t (look t w) := by
  obtain ⟨pending, reached⟩ := w
  cases pending with
  | nil => exact h
  | cons x pending =>
    intro s hs
    rcases List.mem_append.1 hs with hs | hs
    · rcases h s hs with hpending | hsources
      · rcases List.mem_cons.1 hpending with rfl | hpending
        · -- the state that was looked at: each of its sources is old or new
          refine .inr fun s' hs' => List.mem_append.2 ?_
          by_cases hold : s' ∈ reached
          · exact .inl hold
          · exact .inr (mem_newSources.2 ⟨hs', hold⟩)
        · exact .inl (List.mem_append_left _ hpending)
      · exact .inr fun s' hs' => List.mem_append_left _ (hsources s' hs')
    · exact .inl (List.mem_append_right _ hs)

theorem Looked.iterate {t : Table} {w : List String × List String} (h : Looked t w) (n : Nat) :
    Looked t ((Check.look t)^[n] w) := by
  induction n with
  | zero => exact h
  | succ n ih => rw [Function.iterate_succ_apply']; exact ih.look

/-- What is reached stays reached. -/
theorem reached_subset (t : Table) (w : List String × List String) (n : Nat) :
    w.2 ⊆ ((look t)^[n] w).2 := by
  induction n with
  | zero => exact List.Subset.refl _
  | succ n ih =>
    rw [Function.iterate_succ_apply']
    refine List.Subset.trans ih ?_
    generalize (look t)^[n] w = w'
    obtain ⟨pending, reached⟩ := w'
    cases pending with
    | nil => exact List.Subset.refl _
    | cons s pending => exact List.subset_append_left _ _

/-- The states found are those from which some chain of transitions leads to `finish`. -/
theorem mem_reachingFinish {t : Table} {state : String} :
    state ∈ reachingFinish t ↔ Relation.ReflTransGen t.Leads state Names.finish := by
  constructor
  · refine walkBack_sound (List.Subset.refl _) (fun s hs => ?_) state
    rw [List.mem_singleton.1 hs]
  · intro hpath
    have hended := pending_nil_of_unwalked_le (unwalked_finish t)
    have hlooked : Looked t ([Names.finish], [Names.finish]) := fun s hs => .inl hs
    have hclosed := hlooked.iterate (t.blocks.length + 1)
    rw [reachingFinish, walkBack_eq]
    induction hpath using Relation.ReflTransGen.head_induction_on with
    | refl => exact reached_subset t _ _ (List.mem_singleton.2 rfl)
    | head hstep _ ih =>
      rcases hclosed _ ih with hpending | hsources
      · rw [hended] at hpending
        cases hpending
      · exact hsources _ hstep

/-! ## Depth-first search -/

/-- The targets of a state's transitions, in the order of declaration. -/
def targetsOf (t : Table) (state : String) : List String :=
  (t.blocks.filter fun b => b.state == state).flatMap fun b => b.transitions.map (·.target)

theorem mem_targetsOf {t : Table} {state target : String} :
    target ∈ targetsOf t state ↔ t.Leads state target := by
  simp [targetsOf, Table.Leads, and_assoc]

/-- The states of blocks that are not on a path. -/
def statesOff (t : Table) (path : List String) : List String :=
  t.states.filter fun s => s ∉ path

/-- A path that grows by the state of a block leaves fewer states off it. -/
theorem length_statesOff_cons {t : Table} {path : List String} {state : String}
    (hstate : state ∈ t.states) (hoff : state ∉ path) :
    (statesOff t (state :: path)).length < (statesOff t path).length := by
  have hcons : statesOff t (state :: path) = (statesOff t path).filter fun s => s ≠ state := by
    unfold statesOff
    rw [List.filter_filter]
    refine List.filter_congr fun s _ => ?_
    simp [not_or]
  rw [hcons, List.length_filter_lt_length_iff_exists]
  exact ⟨state, List.mem_filter.2 ⟨hstate, by simpa using hoff⟩, by simp⟩

/-- Whether a depth-first search finds `finish` from a state. A state that is on the path already is
a dead end, and so is one without a block. -/
def findsFinish (t : Table) (path : List String) (state : String) : Bool :=
  if state = Names.finish then true
  else if _h : state ∈ t.states ∧ state ∉ path then
    (targetsOf t state).any fun target => findsFinish t (state :: path) target
  else false
termination_by (statesOff t path).length
decreasing_by exact length_statesOff_cons _h.1 _h.2

/-- A transition leads from a state that is not on a path already. -/
def LeadsOff (t : Table) (path : List String) (state target : String) : Prop :=
  state ∉ path ∧ t.Leads state target

/-- A chain of transitions off a path either never comes by a state, or it goes on from there for
the last time. -/
theorem off_or_last {t : Table} {path : List String} {state goal : String} (s : String)
    (h : Relation.ReflTransGen (LeadsOff t path) state goal) :
    Relation.ReflTransGen (LeadsOff t (s :: path)) state goal ∨
      ∃ target, t.Leads s target ∧ Relation.ReflTransGen (LeadsOff t (s :: path)) target goal := by
  induction h using Relation.ReflTransGen.head_induction_on with
  | refl => exact .inl .refl
  | @head state target hstep _ ih =>
    rcases ih with hoff | hlast
    · by_cases heq : state = s
      · exact .inr ⟨target, heq ▸ hstep.2, hoff⟩
      · exact .inl (.head ⟨by simp [heq, hstep.1], hstep.2⟩ hoff)
    · exact .inr hlast

/-- The search finds `finish` exactly where a chain of transitions off the path leads there. -/
theorem findsFinish_iff_off {t : Table} (path : List String) (state : String) :
    findsFinish t path state = true ↔
      Relation.ReflTransGen (LeadsOff t path) state Names.finish := by
  fun_induction findsFinish t path state with
  | case1 path => exact ⟨fun _ => .refl, fun _ => rfl⟩
  | case2 path state hfinish hopen ih =>
    rw [List.any_eq_true]
    constructor
    · rintro ⟨target, htarget, hfound⟩
      have hrest := (ih target).1 hfound
      refine .head ⟨hopen.2, mem_targetsOf.1 htarget⟩ (hrest.lift id fun s _ hs => ?_)
      exact ⟨fun hmem => hs.1 (List.mem_cons_of_mem _ hmem), hs.2⟩
    · intro hpath
      rcases off_or_last state hpath with hoff | ⟨target, hleads, hrest⟩
      · -- such a chain would start at the state itself
        rcases hoff.cases_head with heq | ⟨target, hstep, -⟩
        · exact absurd heq hfinish
        · exact absurd List.mem_cons_self hstep.1
      · exact ⟨target, mem_targetsOf.2 hleads, (ih target).2 hrest⟩
  | case3 path state hfinish hdead =>
    refine ⟨fun h => (Bool.false_ne_true h).elim, fun hpath => ?_⟩
    rcases hpath.cases_head with heq | ⟨target, ⟨hoff, b, hb, rfl, -⟩, -⟩
    · exact absurd heq hfinish
    · exact absurd ⟨List.mem_map_of_mem hb, hoff⟩ hdead

/-- From a state on its own, the search finds `finish` exactly where a path leads there. -/
theorem findsFinish_iff {t : Table} {state : String} :
    findsFinish t [] state = true ↔ Relation.ReflTransGen t.Leads state Names.finish := by
  rw [findsFinish_iff_off]
  constructor
  · exact fun h => h.lift id fun _ _ hstep => hstep.2
  · exact fun h => h.lift id fun _ _ hstep => ⟨List.not_mem_nil, hstep⟩

instance (t : Table) (state : String) :
    Decidable (Relation.ReflTransGen t.Leads state Names.finish) :=
  decidable_of_iff _ findsFinish_iff

/-! ## The check -/

/-- What is reported of a block without a path to `finish`. -/
def noPathIssue (b : Block) : Issue where
  kind := .noPathToFinish
  severity := .error
  state := b.state
  value := none
  line := some b.line
  message := "no path from '" ++ b.state ++ "' leads to finish"
  rule := reachabilityId

/-- The blocks without a path to `finish` are those from which the depth-first search fails. -/
theorem filter_findsFinish (t : Table) :
    (t.blocks.filter fun b => !findsFinish t [] b.state) =
      t.blocks.filter fun b => ¬Relation.ReflTransGen t.Leads b.state Names.finish :=
  List.filter_congr fun b _ => by simp [← findsFinish_iff]

/-- The search reports each block without a path to `finish`, in the order of the blocks. -/
theorem pathIssues_eq (t : Table) :
    pathIssues t =
      (t.blocks.filter fun b => ¬Relation.ReflTransGen t.Leads b.state Names.finish).map
        noPathIssue := by
  have hfilter : (t.blocks.filter fun b => !(reachingFinish t).contains b.state) =
      t.blocks.filter fun b => ¬Relation.ReflTransGen t.Leads b.state Names.finish :=
    List.filter_congr fun b _ => by simp [← mem_reachingFinish]
  rw [← hfilter]
  rfl

/-- The check for paths is exact, whatever the blocks and their targets: the rule, and with it the
report, has one issue for each block from whose state no chain of transitions leads to `finish`, in
the order of the blocks. The walk back from `finish` ends: after one look for each block and one for
`finish` nothing is pending. And a depth-first search from each state on its own, for which states
on the current path are dead ends, singles out the same blocks. -/
theorem path_check_exact (t : Table) (c : Option Catalog) :
    let unable := t.blocks.filter fun b =>
      ¬Relation.ReflTransGen t.Leads b.state Names.finish
    (reachabilityIssues t).filter (fun i => i.kind == .noPathToFinish) = unable.map noPathIssue ∧
    (run t c).ofKind .noPathToFinish = unable.map noPathIssue ∧
    (look t)^[t.blocks.length + 1] ([Names.finish], [Names.finish]) = ([], reachingFinish t) ∧
    (t.blocks.filter fun b => !findsFinish t [] b.state) = unable := by
  refine ⟨?_, ?_, Prod.ext ?_ ?_, filter_findsFinish t⟩
  · rw [filter_reachabilityIssues, pathIssues_eq]
  · rw [ofKind_noPathToFinish, pathIssues_eq]
  · exact pending_nil_of_unwalked_le (unwalked_finish t)
  · exact (walkBack_eq t _ _ _).symm

/-- Two states that only lead to each other are reported; the one that leads out is not. -/
example :
    let step (state target : String) (line : Nat) : Block :=
      { state, method := "", transitions := [{ value := "", target, line }], line }
    ((pathIssues { blocks := [step "a" "b" 1, step "b" "a" 2, step "c" "finish" 3] }).map
      fun i => (i.state, i.line)) = [("a", some 1), ("b", some 2)] := by
  decide +kernel

end Check
end TaskTable
