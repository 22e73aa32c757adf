import TaskTable.Proofs.Supply.Feeding

/-!
# Replaying a script

A scripted supply may be asked in any states in any order, in states that its script does not name
or has no values for, and may be rewound at any point. What it answers in a state depends on nothing
but the script and on how often it was asked there since it was last rewound.
-/

namespace TaskTable

namespace ScriptedSupply

open Script

/-- What can be done with a supply. -/
inductive Call
  | ask (state method : String)
  | rewind

/-- The supply after one call. -/
def perform (s : ScriptedSupply) : Call → ScriptedSupply
  | .ask state method => (Supply.next s state method).1
  | .rewind => Supply.rewind s

/-- The supply after some calls. -/
def after (s : ScriptedSupply) (calls : List Call) : ScriptedSupply :=
  calls.foldl perform s

/-- How often a state was asked for since the last rewinding, one call later. -/
def Call.count (state : String) (n : Nat) : Call → Nat
  | .ask other _ => if other = state then n + 1 else n
  | .rewind => 0

/-- How often a state was asked for since the last rewinding. -/
def asked (state : String) (calls : List Call) : Nat :=
  calls.foldl (Call.count state) 0

/-- What the groups of a script have for a state that is asked for the `k`-th time, from one: the
`k`-th of all its values, or the last one when there are fewer. -/
def answer (gs : List (String × List String)) (state : String) (k : Nat) :
    Except SupplyError String :=
  if state ∈ gs.map (·.1) then
    match (gathered state gs)[min k (gathered state gs).length - 1]? with
    | some value => .ok value
    | none => .error (.noValues state)
  else .error (.unknownState state)

/-! ## The values of a state -/

/-- A supply knows the states that the groups name, also those without values. -/
theorem get?_ofGroups (gs : List (String × List String)) (state : String) :
    (ofGroups gs).values.get? state =
      if state ∈ gs.map (·.1) then some (gathered state gs) else none := by
  have hnamed : ((ofGroups gs).values.get? state).isSome ↔ state ∈ gs.map (·.1) := by
    suffices h : ∀ m : SortedMap String (List String),
        ((gs.foldl (fun m g => m.insert g.1 (m.getD g.1 [] ++ g.2)) m).get? state).isSome ↔
          (m.get? state).isSome ∨ state ∈ gs.map (·.1) by
      simpa [ofGroups] using h .empty
    induction gs with
    | nil => intro m; simp
    | cons g gs ih =>
      intro m
      rw [List.foldl_cons, ih, SortedMap.get?_insert]
      by_cases hg : state = g.1 <;> simp [hg]
  have hvalues := getD_ofGroups gs state
  rw [SortedMap.getD] at hvalues
  cases hget : (ofGroups gs).values.get? state with
  | none =>
    rw [hget] at hnamed
    rw [if_neg (by simpa using hnamed)]
  | some values =>
    rw [hget] at hnamed hvalues
    rw [if_pos (by simpa using hnamed), ← hvalues, Option.getD_some]

/-! ## One call -/

/-- A supply for the groups that has given a state `n` values. Without values in the groups there is
nothing to count, and the cursor of the state is left open. -/
structure Replays (s : ScriptedSupply) (gs : List (String × List String)) (state : String)
    (n : Nat) : Prop where
  values : s.values = (ofGroups gs).values
  cursor : gathered state gs ≠ [] → s.cursors.getD state 0 = n

variable {s : ScriptedSupply} {gs : List (String × List String)} {state : String} {n : Nat}

theorem replays_ofGroups (gs : List (String × List String)) (state : String) :
    (ofGroups gs).Replays gs state 0 :=
  ⟨rfl, fun _ => rfl⟩

/-- What was asked for `n` times before is asked for the next time. -/
theorem Replays.answer (h : s.Replays gs state n) : (s.next state).2 = answer gs state (n + 1) := by
  unfold ScriptedSupply.next ScriptedSupply.answer
  rw [h.values, get?_ofGroups]
  by_cases hnamed : state ∈ gs.map (·.1)
  · rw [if_pos hnamed, if_pos hnamed]
    by_cases hnone : gathered state gs = []
    · simp [hnone]
    · -- counting from none and counting from one find the same place
      have hplace : min (s.cursors.getD state 0) ((gathered state gs).length - 1) =
          min (n + 1) (gathered state gs).length - 1 := by
        rw [h.cursor hnone]
        omega
      simp only [hplace]
      cases (gathered state gs)[min (n + 1) (gathered state gs).length - 1]? <;> rfl
  · rw [if_neg hnamed, if_neg hnamed]

/-- An answer moves the cursor of its own state only. A state without values has none to move. -/
theorem Replays.next (h : s.Replays gs state n) (other : String) :
    (s.next other).1.Replays gs state (if other = state then n + 1 else n) := by
  unfold ScriptedSupply.next
  rw [h.values, get?_ofGroups]
  by_cases hnamed : other ∈ gs.map (·.1)
  · rw [if_pos hnamed]
    by_cases hnone : gathered other gs = []
    · refine ⟨by simpa [hnone] using h.values, fun hsome => ?_⟩
      have hother : other ≠ state := fun heq => hsome (heq ▸ hnone)
      simpa [hnone, hother] using h.cursor hsome
    · have hplace : min (s.cursors.getD other 0) ((gathered other gs).length - 1) <
          (gathered other gs).length := by
        have := List.length_pos_iff.2 hnone
        omega
      simp only [List.getElem?_eq_getElem hplace]
      refine ⟨rfl, fun hsome => ?_⟩
      have hcursor := h.cursor hsome
      show (s.cursors.insert other _).getD state 0 = _
      rw [SortedMap.getD, SortedMap.get?_insert]
      by_cases hother : other = state
      · subst hother
        simp [hcursor]
      · rw [if_neg (Ne.symm hother), if_neg hother, ← SortedMap.getD, hcursor]
  · rw [if_neg hnamed]
    refine ⟨h.values, fun hsome => ?_⟩
    have hother : other ≠ state := fun heq =>
      hsome (gathered_of_not_mem (heq ▸ hnamed))
    simpa [hother] using h.cursor hsome

theorem Replays.perform (h : s.Replays gs state n) (call : Call) :
    (s.perform call).Replays gs state (call.count state n) := by
  cases call with
  | ask other method => exact h.next other
  | rewind => exact ⟨h.values, fun _ => rfl⟩

/-! ## Any calls -/

theorem Replays.after (h : s.Replays gs state n) (calls : List Call) :
    (s.after calls).Replays gs state (calls.foldl (Call.count state) n) := by
  induction calls generalizing s n with
  | nil => exact h
  | cons call calls ih => exact ih (h.perform call)

/-- Rewound at any point, a supply is the one that was built for its groups. -/
theorem rewind_after (gs : List (String × List String)) (calls : List Call) :
    Supply.rewind ((ofGroups gs).after calls) = ofGroups gs := by
  have hvalues := ((replays_ofGroups gs "").after calls).values
  show (⟨_, .empty⟩ : ScriptedSupply) = _
  rw [hvalues]
  rfl

/-- After any calls, a supply answers in a state as its groups have it for the time that it is
asked there since it was rewound, and rewinding it then gives back the supply it was at first. -/
theorem replay_independent (gs : List (String × List String)) (calls : List Call)
    (state method : String) :
    (Supply.next ((ofGroups gs).after calls) state method).2 =
        answer gs state (asked state calls + 1) ∧
      ∀ later, (ofGroups gs).after (calls ++ .rewind :: later) = (ofGroups gs).after later := by
  refine ⟨((replays_ofGroups gs state).after calls).answer, fun later => ?_⟩
  have hback := rewind_after gs calls
  unfold ScriptedSupply.after at hback ⊢
  rw [List.foldl_append, List.foldl_cons, ScriptedSupply.perform, hback]

end ScriptedSupply

end TaskTable
