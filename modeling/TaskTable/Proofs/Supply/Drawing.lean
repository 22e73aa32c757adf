import TaskTable.Proofs.Table.WellFormed
import TaskTable.Supply.Random

/-!
# What a random supply draws

A supply that is built for a table gives a legal value in each of its blocks, whatever its generator
comes up with (`Built.next_legal`): `Legal` says which these are. How often it was asked and rewound
before makes no difference, since none of that touches the candidates. Rewound, a supply is the one
that its seed makes, so it draws the same again.
-/

namespace TaskTable

/-! ## Choices -/

namespace Generator

variable {γ : Type} [Generator γ]

theorem word_mul_div_lt (word : UInt32) {bound : Nat} (h : 0 < bound) :
    word.toNat * bound / Number.twoPow 32 < bound := by
  have hword : word.toNat < Number.twoPow 32 := word.toNat_lt
  exact Nat.div_lt_of_lt_mul (Nat.mul_lt_mul_of_pos_right hword h)

/-- A number that is drawn below a bound is below it, whether or not its word counts. -/
theorem below_lt {bound : Nat} (h : 0 < bound) (fuel : Nat) (g : γ) :
    (below bound fuel g).1 < bound := by
  induction fuel generalizing g with
  | zero => exact word_mul_div_lt _ h
  | succ fuel ih =>
    rw [below]
    dsimp only
    split
    · exact word_mul_div_lt _ h
    · exact ih _

/-- From a list with items one of them is chosen. -/
theorem exists_mem_choose? {α : Type} {l : List α} (h : l ≠ []) (g : γ) :
    ∃ a ∈ l, (choose? l g).1 = some a := by
  have hbelow : (below l.length 256 g).1 < l.length := below_lt (List.length_pos_iff.2 h) 256 g
  refine ⟨l[(below l.length 256 g).1], List.getElem_mem hbelow, ?_⟩
  rw [choose?, if_neg (by simpa using h)]
  exact List.getElem?_eq_getElem hbelow

end Generator

/-! ## Calls -/

namespace Supply

variable {τ : Type} [Supply τ]

/-- What a supply is after some calls, each of which asks it for a value or rewinds it. -/
inductive Reaches (x : τ) : τ → Prop
  | refl : Reaches x x
  | next {y : τ} (before : Reaches x y) (state method : String) :
      Reaches x (Supply.next y state method).1
  | rewind {y : τ} (before : Reaches x y) : Reaches x (Supply.rewind y)

/-- What a supply answers to questions, each a state and a method, one after the other. -/
def answers : τ → List (String × String) → List (Except SupplyError String)
  | _, [] => []
  | x, q :: rest =>
    (Supply.next x q.1 q.2).2 :: answers (Supply.next x q.1 q.2).1 rest

end Supply

namespace RandomSupply

variable {γ : Type} [Generator γ]

/-! ## Supplies for a table -/

/-- A random supply that was built for a table and a catalog, with whatever was set and drawn
since. -/
inductive Built (t : Table) (c : Catalog) : RandomSupply γ → Prop
  | ofTable (seed : UInt64) : Built t c (ofTable t c seed)
  | withSeed {x : RandomSupply γ} (before : Built t c x) (seed : UInt64) :
      Built t c (x.withSeed seed)
  | withProbability {x y : RandomSupply γ} {p : Number.Binary64} (before : Built t c x)
      (set : x.withProbability p = .ok y) : Built t c y
  | next {x : RandomSupply γ} (before : Built t c x) (state method : String) :
      Built t c (Supply.next x state method).1
  | rewind {x : RandomSupply γ} (before : Built t c x) : Built t c (Supply.rewind x)

/-- The values that may be drawn in a block. -/
inductive Legal (c : Catalog) (b : Block) : String → Prop
  | error : Legal c b Names.error
  | empty (method : b.method = Names.emptyTransition) : Legal c b ""
  | declared {value : String} (method : b.method ≠ Names.emptyTransition)
      (declared : value ∈ c.valuesOf b.method) : Legal c b value
  /-- Where nothing is declared for the method, the block has the values. -/
  | own {value : String} (method : b.method ≠ Names.emptyTransition)
      (undeclared : c.valuesOf b.method = []) (own : value ∈ b.values)
      (ordinary : value ≠ Names.error ∧ value ≠ Names.terminateRequested) : Legal c b value

/-- The supply with a generator that is somewhere else. -/
theorem next_fst (x : RandomSupply γ) (state method : String) :
    ∃ g, (Supply.next x state method).1 = { x with generator := g } := by
  show ∃ g, (x.next state method).1 = _
  unfold RandomSupply.next
  dsimp only
  split
  · exact ⟨_, rfl⟩
  · split
    · exact ⟨_, rfl⟩
    · split
      · exact ⟨_, rfl⟩
      · exact ⟨_, rfl⟩

/-- No call and no setting changes what there is to draw from. -/
theorem Built.candidates {t : Table} {c : Catalog} {x : RandomSupply γ} (h : Built t c x) :
    x.candidates = .ofList (t.blocks.map fun b => (b.state, candidatesOf b c)) := by
  induction h with
  | ofTable => rfl
  | withSeed _ _ ih | rewind _ ih => exact ih
  | @withProbability x y p _ set ih =>
    unfold RandomSupply.withProbability at set
    split at set
    · cases set
      exact ih
    · cases set
  | @next x _ state method ih =>
    obtain ⟨g, hnext⟩ := x.next_fst state method
    rw [hnext]
    exact ih

/-- There are candidates for each block of a table, those of the block. -/
theorem Built.get?_candidates {t : Table} (hwf : t.WellFormed) {c : Catalog} {x : RandomSupply γ}
    (h : Built t c x) {b : Block} (hb : b ∈ t.blocks) :
    x.candidates.get? b.state = some (candidatesOf b c) := by
  have hkeys : ((t.blocks.map fun b => (b.state, candidatesOf b c)).map (·.1)).Nodup := by
    rw [List.map_map]
    exact hwf.states
  rw [h.candidates, SortedMap.get?_ofList_iff hkeys]
  exact List.mem_map.2 ⟨b, hb, rfl⟩

theorem legal_of_mem_candidatesOf {c : Catalog} {b : Block} {value : String}
    (hmethod : b.method ≠ Names.emptyTransition) (h : value ∈ candidatesOf b c) :
    Legal c b value := by
  unfold candidatesOf at h
  split at h
  · next hnone =>
    obtain ⟨hown, hkept⟩ := List.mem_filter.1 h
    rw [Bool.and_eq_true, bne_iff_ne, bne_iff_ne] at hkept
    exact .own hmethod hnone hown hkept
  · exact .declared hmethod h

/-- The values of a block stand in for declared ones without `!`. -/
theorem error_mem_valuesOf {c : Catalog} {b : Block} (h : Names.error ∈ candidatesOf b c) :
    Names.error ∈ c.valuesOf b.method := by
  unfold candidatesOf at h
  split at h
  · obtain ⟨-, hkept⟩ := List.mem_filter.1 h
    rw [bne_self_eq_false, Bool.false_and] at hkept
    cases hkept
  · exact h

/-! ## Draws -/

/-- The value for a block is `!` by chance, or by the block: `''` for the built-in method, else a
candidate, or `!` where there is none. -/
theorem Built.next_cases {t : Table} (hwf : t.WellFormed) {c : Catalog} {x : RandomSupply γ}
    (h : Built t c x) {b : Block} (hb : b ∈ t.blocks) :
    ∃ y value, Supply.next x b.state b.method = (y, .ok value) ∧
      (value = Names.error ∧
          (Generator.chance x.failureProbability.timesTwoPow64 x.generator).1 = true ∨
        b.method = Names.emptyTransition ∧ value = "" ∨
        b.method ≠ Names.emptyTransition ∧
          (value ∈ candidatesOf b c ∨ candidatesOf b c = [] ∧ value = Names.error)) := by
  show ∃ y value, x.next b.state b.method = (y, .ok value) ∧ _
  unfold RandomSupply.next
  rw [h.get?_candidates hwf hb]
  generalize Generator.chance x.failureProbability.timesTwoPow64 x.generator = drawn
  obtain ⟨fails, g⟩ := drawn
  dsimp only
  split
  · next hfails => exact ⟨_, _, rfl, .inl ⟨rfl, hfails⟩⟩
  · split
    · next hempty => exact ⟨_, _, rfl, .inr (.inl ⟨hempty, rfl⟩)⟩
    · next hmethod =>
      by_cases hnone : candidatesOf b c = []
      · rw [hnone]
        exact ⟨_, _, rfl, .inr (.inr ⟨hmethod, .inr ⟨rfl, rfl⟩⟩)⟩
      · obtain ⟨value, hvalue, hchosen⟩ := Generator.exists_mem_choose? hnone g
        rw [hchosen]
        exact ⟨_, _, rfl, .inr (.inr ⟨hmethod, .inl hvalue⟩)⟩

/-- Every draw for a block is legal, and `!` is drawn by chance, where it is declared, or where
there is nothing else. -/
theorem Built.next_legal {t : Table} (hwf : t.WellFormed) {c : Catalog} {x : RandomSupply γ}
    (h : Built t c x) {b : Block} (hb : b ∈ t.blocks) :
    ∃ y value, Supply.next x b.state b.method = (y, .ok value) ∧ Legal c b value ∧
      (value = Names.error →
        (Generator.chance x.failureProbability.timesTwoPow64 x.generator).1 = true ∨
          Names.error ∈ c.valuesOf b.method ∨ candidatesOf b c = []) := by
  obtain ⟨y, value, hnext, hvalue⟩ := h.next_cases hwf hb
  refine ⟨y, value, hnext, ?_⟩
  rcases hvalue with ⟨rfl, hchance⟩ | ⟨hmethod, rfl⟩ | ⟨hmethod, hcandidate | ⟨hnone, rfl⟩⟩
  · exact ⟨.error, fun _ => .inl hchance⟩
  · exact ⟨.empty hmethod, fun h => absurd h (by decide)⟩
  · refine ⟨legal_of_mem_candidatesOf hmethod hcandidate, fun h => .inr (.inl ?_)⟩
    rw [h] at hcandidate
    exact error_mem_valuesOf hcandidate
  · exact ⟨.error, fun _ => .inr (.inr hnone)⟩

/-! ## Drawing again -/

/-- No call changes what a supply is rewound to. -/
theorem rewind_of_reaches {x y : RandomSupply γ} (h : Supply.Reaches x y) :
    Supply.rewind y = Supply.rewind x := by
  induction h with
  | refl => rfl
  | @next y _ state method ih =>
    obtain ⟨g, hnext⟩ := y.next_fst state method
    rw [hnext]
    exact ih
  | rewind _ ih => exact ih

end RandomSupply

end TaskTable
