import TaskTable.Proofs.Recording.Scripts
import TaskTable.Supply.Scripted
import TaskTable.Supply.Verified

/-!
# Supplies that give certain values

The supply for the entries of a script gives their values back when it is asked in their states, in
the order of the entries: a verifying supply because it holds the entries in this order, a scripted
one because it holds the values of each state in this order.
-/

namespace TaskTable

/-- A supply that gives the values of these entries when it is asked in their states, in order, and
is then another. -/
def Supply.Feeds {τ : Type} [Supply τ] : τ → List (String × String) → τ → Prop
  | p, [], q => p = q
  | p, e :: es, q =>
    ∃ p', (∀ method, Supply.next p e.1 method = (p', .ok e.2)) ∧ Supply.Feeds p' es q

/-- What gives two rows of entries gives the first and then the second. -/
theorem Supply.feeds_append {τ : Type} [Supply τ] {p r : τ} {es fs : List (String × String)}
    (h : Supply.Feeds p (es ++ fs) r) : ∃ q, Supply.Feeds p es q ∧ Supply.Feeds q fs r := by
  induction es generalizing p with
  | nil => exact ⟨p, rfl, h⟩
  | cons e es ih =>
    obtain ⟨p', hnext, hrest⟩ := h
    obtain ⟨q, hq, hfs⟩ := ih hrest
    exact ⟨q, ⟨p', hnext, hq⟩, hfs⟩

theorem Supply.Feeds.append {τ : Type} [Supply τ] {p q r : τ} {es fs : List (String × String)}
    (h : Supply.Feeds p es q) (h' : Supply.Feeds q fs r) : Supply.Feeds p (es ++ fs) r := by
  induction es generalizing p with
  | nil =>
    cases h
    exact h'
  | cons e es ih =>
    obtain ⟨p', hnext, hrest⟩ := h
    exact ⟨p', hnext, ih hrest⟩

/-! ## Verifying supplies -/

namespace VerifyingSupply

theorem feeds_from (before es : List (String × String)) :
    Supply.Feeds (⟨before ++ es, before.length⟩ : VerifyingSupply) es
      ⟨before ++ es, (before ++ es).length⟩ := by
  induction es generalizing before with
  | nil =>
    rw [List.append_nil]
    rfl
  | cons e es ih =>
    refine ⟨⟨before ++ e :: es, before.length + 1⟩, fun method => ?_, ?_⟩
    · show next _ _ = _
      unfold next
      simp
    · have hrest := ih (before ++ [e])
      rwa [List.append_assoc, List.singleton_append, List.length_append] at hrest

/-- A verifying supply gives its entries, and is then finished. -/
theorem feeds_ofEntries (es : List (String × String)) :
    Supply.Feeds (ofEntries es) es ⟨es, es.length⟩ :=
  feeds_from [] es

end VerifyingSupply

/-! ## Scripted supplies -/

namespace ScriptedSupply

open Script

/-- The values of a state in the groups of a script. -/
theorem getD_ofGroups (gs : List (String × List String)) (state : String) :
    (ofGroups gs).values.getD state [] = gathered state gs := by
  suffices h : ∀ m : SortedMap String (List String),
      (gs.foldl (fun m g => m.insert g.1 (m.getD g.1 [] ++ g.2)) m).getD state [] =
        m.getD state [] ++ gathered state gs by
    exact h .empty
  induction gs with
  | nil => intro m; simp [gathered]
  | cons g gs ih =>
    intro m
    rw [List.foldl_cons, ih]
    by_cases hg : g.1 = state
    · subst hg
      simp [gathered, SortedMap.getD]
    · have hget : (m.insert g.1 (m.getD g.1 [] ++ g.2)).getD state [] = m.getD state [] := by
        rw [SortedMap.getD, SortedMap.get?_insert_of_ne m (Ne.symm hg), ← SortedMap.getD]
      rw [hget]
      simp [gathered, hg]

/-- A supply that holds the values of all entries and has given those of the first ones. -/
structure Holds (s : ScriptedSupply) (before es : List (String × String)) : Prop where
  values : ∀ state, s.values.getD state [] = valuesIn state (before ++ es)
  cursors : ∀ state, s.cursors.getD state 0 = (valuesIn state before).length

theorem valuesIn_append (state : String) (es fs : List (String × String)) :
    valuesIn state (es ++ fs) = valuesIn state es ++ valuesIn state fs := by
  simp [valuesIn]

theorem valuesIn_cons (state : String) (e : String × String) (es : List (String × String)) :
    valuesIn state (e :: es) = (if e.1 = state then [e.2] else []) ++ valuesIn state es := by
  by_cases h : e.1 = state <;> simp [valuesIn, h]

/-- The next value is the one of the next entry, if it is asked for in the state of this. -/
theorem Holds.next {s : ScriptedSupply} {before es : List (String × String)} {e : String × String}
    (h : s.Holds before (e :: es)) :
    ∃ s' : ScriptedSupply, s.next e.1 = (s', .ok e.2) ∧ s'.Holds (before ++ [e]) es := by
  have hvalues := h.values e.1
  have hcursor := h.cursors e.1
  rw [valuesIn_append, valuesIn_cons, if_pos rfl, List.singleton_append] at hvalues
  have hget : s.values.get? e.1 = some (s.values.getD e.1 []) := by
    rw [SortedMap.getD] at hvalues ⊢
    cases hs : s.values.get? e.1 with
    | none =>
      rw [hs] at hvalues
      simp at hvalues
    | some values => rfl
  -- the cursor stands on the value of the entry, before the last one is repeated
  have hindex : min (s.cursors.getD e.1 0) ((s.values.getD e.1 []).length - 1) =
      (valuesIn e.1 before).length := by
    rw [hcursor, hvalues, List.length_append, List.length_cons]
    omega
  have hvalue : (s.values.getD e.1 [])[(valuesIn e.1 before).length]? = some e.2 := by
    rw [hvalues]
    simp
  refine ⟨{ s with cursors := s.cursors.insert e.1 (s.cursors.getD e.1 0 + 1) }, ?_, ?_, ?_⟩
  · unfold ScriptedSupply.next
    simp only [hget, hindex, hvalue]
  · intro state
    rw [List.append_assoc, List.singleton_append]
    exact h.values state
  · intro state
    rw [valuesIn_append, valuesIn_cons, List.length_append, List.length_append, SortedMap.getD,
      SortedMap.get?_insert]
    by_cases hstate : e.1 = state
    · subst hstate
      simp [valuesIn, hcursor]
    · rw [if_neg (Ne.symm hstate), if_neg hstate, ← SortedMap.getD, h.cursors state]
      simp [valuesIn]

/-- A supply gives the entries whose values it holds. -/
theorem Holds.feeds {s : ScriptedSupply} {before es : List (String × String)}
    (h : s.Holds before es) : ∃ q, Supply.Feeds s es q := by
  induction es generalizing s before with
  | nil => exact ⟨s, rfl⟩
  | cons e es ih =>
    obtain ⟨s', hnext, hholds⟩ := h.next
    obtain ⟨q, hq⟩ := ih hholds
    exact ⟨q, s', fun _ => hnext, hq⟩

/-- The supply for the groups of entries gives these entries. -/
theorem feeds_ofGroups (es : List (String × String)) :
    ∃ q, Supply.Feeds (ofGroups (group es)) es q := by
  have hholds : (ofGroups (group es)).Holds [] es := by
    refine ⟨fun state => ?_, fun _ => rfl⟩
    rw [getD_ofGroups, gathered_group, List.nil_append]
  exact hholds.feeds

end ScriptedSupply

end TaskTable
