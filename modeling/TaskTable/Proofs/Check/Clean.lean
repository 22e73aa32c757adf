import TaskTable.Check.Report
import TaskTable.Proofs.Table.WellFormed

/-!
# What a clean report means

What a table has when a check of it finds no issue of a kind: no missing block makes it `Closed`, no
missing handler and no missing selector make it `Served` by the catalog, and without unused values
every value that a selector may give leads somewhere.
-/

namespace TaskTable

/-! ## Properties of tables -/

/-- A table in which no block is missing: errors and terminations have a state to go to, and so has
every transition. -/
structure Table.Closed (t : Table) : Prop where
  failure : t.hasBlock Names.failure = true
  terminate : t.hasBlock Names.terminate = true
  targets : ∀ b ∈ t.blocks, ∀ e ∈ b.transitions, t.isKnown e.target = true

/-- A table whose states and methods all have their code in a catalog, or need none. -/
structure Table.Served (t : Table) (c : Catalog) : Prop where
  states : ∀ b ∈ t.blocks, Names.isBuiltin b.state = true ∨ c.hasState b.state = true
  methods : ∀ b ∈ t.blocks, b.method = Names.emptyTransition ∨ c.hasSelector b.method = true

/-- A value that the selector of a method may give by its declaration. -/
def Catalog.MayGive (c : Catalog) (method value : String) : Prop :=
  value ∈ c.valuesOf method ∨ method = Names.emptyTransition ∧ value = ""

/-- A table that handles all values that the selectors may give, apart from `!`. -/
def Table.Handles (t : Table) (c : Catalog) : Prop :=
  ∀ b ∈ t.blocks, ∀ value, c.MayGive b.method value → value ≠ Names.error → b.next? value ≠ none

namespace Check

/-! ## Reports without issues of a kind -/

/-- What the rules find is reported. -/
theorem mem_issues {t : Table} {c : Option Catalog} {i : Issue}
    (h : i ∈ requiredStateIssues t ∨ i ∈ reachabilityIssues t ∨
      i ∈ c.elim [] (handlerMethodIssues t) ∨ i ∈ c.elim [] (transitionValueIssues t)) :
    i ∈ (run t c).issues := by
  show i ∈ rules.flatMap fun r => r.issues t c
  simp only [rules, List.flatMap_cons, List.flatMap_nil, List.append_nil, List.mem_append]
  rcases h with h | h | h | h
  · exact .inl h
  · exact .inr (.inl h)
  · exact .inr (.inr (.inr (.inl h)))
  · exact .inr (.inr (.inr (.inr h)))

/-- Where no issue of a kind is reported, none that is reported is of the kind. -/
theorem kind_ne_of_clean {t : Table} {c : Option Catalog} {k : Kind}
    (h : (run t c).ofKind k = []) {i : Issue} (hi : i ∈ (run t c).issues) : i.kind ≠ k := by
  have hnone := List.filter_eq_nil_iff.1 h i hi
  simpa using hnone

/-! ## Missing blocks -/

/-- A wanted target that was not seen before has a first edge. -/
theorem firstEdges_ne_nil (wanted : String → Bool) {es : List (Block × Transition)}
    {e : Block × Transition} (he : e ∈ es) (hwanted : wanted e.2.target = true)
    {seen : List String} (hseen : e.2.target ∉ seen) : firstEdges wanted seen es ≠ [] := by
  induction es with
  | nil => cases he
  | cons hd es ih =>
    rw [firstEdges]
    split
    · next hskip =>
      refine ih ?_
      rcases List.mem_cons.1 he with rfl | he
      · simp [hwanted, hseen] at hskip
      · exact he
    · exact List.cons_ne_nil _ _

/-- A table is closed if no missing block is reported. -/
theorem closed_of_clean {t : Table} {c : Option Catalog}
    (h : (run t c).ofKind .missingBlock = []) : t.Closed := by
  have hrequired : ∀ s ∈ requiredStates, t.hasBlock s = true := by
    intro s hs
    by_contra hmissing
    have hfound : s ∈ requiredStates.filter fun s => !t.hasBlock s :=
      List.mem_filter.2 ⟨hs, by simpa using hmissing⟩
    have hissue : _ ∈ requiredStateIssues t := List.mem_map_of_mem hfound
    exact kind_ne_of_clean h (mem_issues (.inl hissue)) rfl
  have hfailure := hrequired Names.failure (by simp [requiredStates])
  have hterminate := hrequired Names.terminate (by simp [requiredStates])
  refine ⟨hfailure, hterminate, fun b hb e he => ?_⟩
  by_contra hunknown
  have hedge : (b, e) ∈ edges t := List.mem_flatMap.2 ⟨b, hb, List.mem_map_of_mem he⟩
  -- states that are required are not reported again as targets
  have hseen : e.target ∉ requiredStates := by
    intro hmem
    exact hunknown (by rw [Table.isKnown, hrequired _ hmem, Bool.or_true])
  obtain ⟨first, hfirst⟩ := List.exists_mem_of_ne_nil _
    (firstEdges_ne_nil (fun s => !t.isKnown s) hedge (by simpa using hunknown) hseen)
  have hissue : _ ∈ reachabilityIssues t :=
    List.mem_append_left _ (List.mem_map_of_mem hfirst)
  exact kind_ne_of_clean h (mem_issues (.inr (.inl hissue))) rfl

/-! ## Missing code -/

/-- The method of every block is among the methods of the table. -/
theorem mem_methods {t : Table} {b : Block} (hb : b ∈ t.blocks) : b.method ∈ t.methods := by
  suffices h : ∀ (bs : List Block) (ms : List String), b ∈ bs ∨ b.method ∈ ms →
      b.method ∈ bs.foldl (fun ms b => if ms.contains b.method then ms else ms ++ [b.method]) ms by
    exact h t.blocks [] (.inl hb)
  intro bs
  induction bs with
  | nil => rintro ms (h | h); exacts [absurd h List.not_mem_nil, h]
  | cons hd bs ih =>
    intro ms h
    refine ih _ ?_
    dsimp only
    by_cases hms : b.method ∈ ms
    · refine .inr ?_
      split
      · exact hms
      · exact List.mem_append_left _ hms
    · rcases h with h | h
      · rcases List.mem_cons.1 h with rfl | h
        · exact .inr (by rw [if_neg (by simpa using hms)]; simp)
        · exact .inl h
      · exact absurd h hms

/-- A table is served by a catalog if no missing handler and no missing selector are reported. -/
theorem served_of_clean {t : Table} {c : Catalog}
    (hstates : (run t (some c)).ofKind .missingStateMethod = [])
    (hmethods : (run t (some c)).ofKind .missingTransitionMethod = []) : t.Served c := by
  refine ⟨fun b hb => ?_, fun b hb => ?_⟩
  · by_contra hmissing
    rw [not_or, Bool.not_eq_true, Bool.not_eq_true] at hmissing
    have hfound : b ∈ t.blocks.filter fun b => !Names.isBuiltin b.state && !c.hasState b.state :=
      List.mem_filter.2 ⟨hb, by rw [hmissing.1, hmissing.2]; rfl⟩
    have hissue : _ ∈ handlerMethodIssues t c :=
      List.mem_append_left _ (List.mem_map_of_mem hfound)
    exact kind_ne_of_clean hstates (mem_issues (.inr (.inr (.inl hissue)))) rfl
  · by_contra hmissing
    rw [not_or, Bool.not_eq_true] at hmissing
    -- the issue is reported at the first block that uses the method
    obtain ⟨first, hfirst⟩ :
        ∃ first, t.blocks.find? (fun b' => b'.method == b.method) = some first :=
      Option.isSome_iff_exists.1 (List.find?_isSome.2 ⟨b, hb, by simp⟩)
    obtain ⟨i, hfound, hkind⟩ : ∃ i, missingSelectorIssue? t c b.method = some i ∧
        i.kind = .missingTransitionMethod := by
      unfold missingSelectorIssue?
      rw [if_neg (by simp [hmissing.1, hmissing.2]), hfirst]
      exact ⟨_, rfl, rfl⟩
    have hissue : i ∈ handlerMethodIssues t c :=
      List.mem_append_right _ (List.mem_filterMap.2 ⟨_, mem_methods hb, hfound⟩)
    exact kind_ne_of_clean hmethods (mem_issues (.inr (.inr (.inl hissue)))) hkind

/-! ## Unused values -/

theorem mem_keys_ofList {l : List String} {value : String} (h : value ∈ l) :
    value ∈ (TextSet.ofList l).keys := by
  suffices hfold : ∀ (l : List String) (m : TextSet), value ∈ l ∨ (m.get? value).isSome →
      (((l.map fun s => (s, ())).foldl (fun m e => m.insert e.1 e.2) m).get? value).isSome by
    exact SortedMap.mem_keys.2 (hfold l .empty (.inl h))
  intro l
  induction l with
  | nil => rintro m (h | h); exacts [absurd h List.not_mem_nil, h]
  | cons s l ih =>
    intro m h
    refine ih _ ?_
    rw [SortedMap.get?_insert]
    by_cases hs : value = s
    · exact .inr (by rw [if_pos hs]; rfl)
    · rw [if_neg hs]
      exact h.imp_left fun h => (List.mem_cons.1 h).resolve_left hs

/-- A value that a selector may give is a legal one. -/
theorem mem_legalValues {c : Catalog} {method value : String} (h : c.MayGive method value) :
    value ∈ (legalValues c method).keys := by
  refine mem_keys_ofList (List.mem_append.2 (h.imp_right ?_))
  rintro ⟨rfl, rfl⟩
  simp

/-- A table that is served handles all values if no unused value is reported. -/
theorem handles_of_clean {t : Table} {c : Catalog} (hserved : t.Served c)
    (hvalues : (run t (some c)).ofKind .unusedValue = []) : t.Handles c := by
  intro b hb value hgive hne hnext
  -- a value that leads nowhere has neither a transition of its own nor a wildcard
  have hnone : b.transition? value = none ∧ b.hasWildcard = false := by
    unfold Block.next? at hnext
    unfold Block.hasWildcard
    split at hnext
    · cases hnext
    · next hvalue =>
      split at hnext
      · cases hnext
      · exact ⟨hvalue, by rw [hnext]; rfl⟩
  have hunhandled : value ∈ (legalValues c b.method).keys.filter fun v =>
      (b.transition? v).isNone :=
    List.mem_filter.2 ⟨mem_legalValues hgive, by rw [hnone.1]; rfl⟩
  have hselector : (b.method == Names.emptyTransition || c.hasSelector b.method) = true := by
    rcases hserved.methods b hb with h | h <;> simp [h]
  obtain ⟨i, hfound, hkind⟩ : ∃ i ∈ unhandledIssues b (legalValues c b.method),
      i.kind = .unusedValue := by
    unfold unhandledIssues
    rw [if_neg (by simp [hnone.2])]
    exact ⟨_, List.mem_map_of_mem hunhandled, rfl⟩
  have hissue : i ∈ transitionValueIssues t c := by
    refine List.mem_flatMap.2 ⟨b, hb, ?_⟩
    rw [if_pos hselector]
    exact List.mem_append_right _ hfound
  exact kind_ne_of_clean hvalues (mem_issues (.inr (.inr (.inr hissue)))) hkind

end Check
end TaskTable
