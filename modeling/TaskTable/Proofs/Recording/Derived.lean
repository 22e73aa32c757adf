import TaskTable.Proofs.Recording.Scripts

/-!
# What the scripts of a recording say

A simulation script names each state that was asked for a value once, where it was asked first, and
says what it gave from then on; a verification script says what was given in the order of the
recording. Both are read back as just that (`scripts_read_back`), whatever else was recorded.
-/

namespace TaskTable

namespace Script

/-! ## The groups of entries -/

theorem eraseDups_concat (states : List String) (state : String) :
    (states ++ [state]).eraseDups =
      if state ∈ states then states.eraseDups else states.eraseDups ++ [state] := by
  rw [List.eraseDups_append]
  by_cases h : state ∈ states <;> simp [List.removeAll, List.eraseDups_cons, h]

/-- There is a group for each state, where the state appears first. -/
theorem keys_group (es : List (String × String)) :
    (group es).map (·.1) = (es.map (·.1)).eraseDups := by
  induction es using List.reverseRecOn with
  | nil => rfl
  | append_singleton es e ih =>
    rw [group_concat, keys_add, ih, List.map_append, List.map_singleton, eraseDups_concat]
    simp only [List.mem_eraseDups]

/-- Where no state has two groups, its values are those of its group. -/
theorem gathered_of_mem {gs : List (String × List String)} (h : (gs.map (·.1)).Nodup)
    {g : String × List String} (hg : g ∈ gs) : gathered g.1 gs = g.2 := by
  induction gs with
  | nil => cases hg
  | cons hd gs ih =>
    obtain ⟨hnew, hnodup⟩ := List.nodup_cons.1 h
    rw [gathered_cons]
    rcases List.mem_cons.1 hg with rfl | hg
    · rw [if_pos rfl, gathered_of_not_mem hnew, List.append_nil]
    · have hne : hd.1 ≠ g.1 := by
        intro heq
        exact hnew (List.mem_map.2 ⟨g, hg, heq.symm⟩)
      rw [if_neg hne, List.nil_append, ih hnodup hg]

/-- The groups of entries: each state once, in the order in which they first appear, with all its
values in order. -/
theorem group_eq (es : List (String × String)) :
    group es = (es.map (·.1)).eraseDups.map fun state => (state, valuesIn state es) := by
  -- the keys are known, so each group is given by what it holds for its key
  have hvalues : ∀ g ∈ group es, g = (g.1, valuesIn g.1 es) := by
    intro g hg
    rw [← gathered_group, gathered_of_mem (nodup_group es) hg]
  rw [← keys_group, List.map_map]
  exact (List.map_id _).symm.trans (List.map_congr_left hvalues)

end Script

/-! ## Recordings -/

/-- Only a transition whose value came from a selector tells what was given. -/
theorem Event.selected?_eq_none {e : Event}
    (h : ∀ state method value requested time,
      e ≠ .transition state method value requested .selector time) : e.selected? = none := by
  cases e with
  | state => rfl
  | transition state method value requested origin time =>
    cases origin with
    | selector => exact absurd rfl (h state method value requested time)
    | fallback | signal => rfl

namespace Recording

open Script Grammar

theorem selected_writable {r : Recording}
    (h : ∀ state method value requested time,
      Event.transition state method value requested .selector time ∈ r.events →
        IsName state ∧ Quotable (requested.getD value)) : ∀ e ∈ r.selected, Writable e := by
  intro e he
  obtain ⟨event, hevent, hselected⟩ := List.mem_filterMap.1 he
  cases event with
  | state => cases hselected
  | transition state method value requested origin time =>
    cases origin with
    | selector =>
      cases hselected
      exact h state method value requested time hevent
    | fallback | signal => cases hselected

/-- The scripts of a recording can be read, whatever was recorded, if the states in which selectors
gave values are names and the values can be quoted. The simulation script is read as these states,
each where it appears first and with its values in order, and the verification script as the states
and values in order. No other event leaves a mark in them. -/
theorem scripts_read_back {r : Recording}
    (h : ∀ state method value requested time,
      Event.transition state method value requested .selector time ∈ r.events →
        IsName state ∧ Quotable (requested.getD value)) :
    readGroups r.simulationScript =
        .ok ((r.selected.map (·.1)).eraseDups.map fun state =>
          (state, valuesIn state r.selected)) ∧
      readEntries r.verificationScript = .ok r.selected ∧
      ∀ before e after, r.events = before ++ e :: after →
        (∀ state method value requested time,
          e ≠ .transition state method value requested .selector time) →
        ({ r with events := before ++ after } : Recording).simulationScript =
            r.simulationScript ∧
          ({ r with events := before ++ after } : Recording).verificationScript =
            r.verificationScript := by
  have hwritable := selected_writable h
  refine ⟨?_, read_verificationScript hwritable, fun before e after hevents hother => ?_⟩
  · rw [read_simulationScript hwritable, group_eq]
  · -- the scripts are printed from the selected values alone
    have hselected : ({ r with events := before ++ after } : Recording).selected = r.selected := by
      simp only [selected, hevents, List.filterMap_append, List.filterMap_cons,
        Event.selected?_eq_none hother]
    simp only [simulationScript, verificationScript, hselected, and_self]

/-- A recording with values that need quotes, a selector that failed, a value that was replaced, and
transitions of other kinds whose values no script could hold. -/
def oddValues : Recording where
  events :=
    [.state "b" true ⟨0, 0⟩,
      .transition "b" "pick" "" none .selector ⟨0, 0⟩, .state "a-1" true ⟨0, 0⟩,
      .transition "a-1" "pick" "!" (some "#\x7b=\x7d\r") .selector ⟨0, 0⟩, .state "b" false ⟨0, 0⟩,
      .transition "b" "pick" "it's # so" none .selector ⟨0, 0⟩, .state "no name" true ⟨0, 0⟩,
      .transition "no name" "pick" "\n" none .fallback ⟨0, 0⟩, .state "b" true ⟨0, 0⟩,
      .transition "b" "pick" "'\"" none .signal ⟨0, 0⟩, .state "b" true ⟨0, 0⟩,
      .transition "b" "pick" "!" none .selector ⟨0, 0⟩, .state "failure" true ⟨0, 0⟩]

theorem scripts_read_back_oddValues :
    (∀ state method value requested time,
      Event.transition state method value requested .selector time ∈ oddValues.events →
        IsName state ∧ Quotable (requested.getD value)) ∧
    readGroups oddValues.simulationScript =
      .ok [("b", ["", "it's # so", "!"]), ("a-1", ["#\x7b=\x7d\r"])] ∧
    readEntries oddValues.verificationScript =
      .ok [("b", ""), ("a-1", "#\x7b=\x7d\r"), ("b", "it's # so"), ("b", "!")] := by
  have hvalues : ∀ state method value requested time,
      Event.transition state method value requested .selector time ∈ oddValues.events →
        IsName state ∧ Quotable (requested.getD value) := by
    intro state method value requested time h
    simp only [oddValues, List.mem_cons, List.not_mem_nil, reduceCtorEq, false_or, or_false,
      Event.transition.injEq, false_and, and_false] at h
    rcases h with ⟨rfl, -, rfl, rfl, -⟩ | ⟨rfl, -, rfl, rfl, -⟩ | ⟨rfl, -, rfl, rfl, -⟩ |
      ⟨rfl, -, rfl, rfl, -⟩
    all_goals exact ⟨by decide, by decide⟩
  obtain ⟨hgroups, hentries, -⟩ := scripts_read_back hvalues
  exact ⟨hvalues, hgroups, hentries⟩

end Recording

end TaskTable
