import TaskTable.Proofs.Table.WellFormed
import TaskTable.Task.Basic

/-!
# Clearing a count

A count is cleared by the state and the value of a transition. The value is looked up as it is when
it is taken, with two exceptions: `!` and `terminateRequested` take the route of their own where a
block does not declare them, but are cleared as any other value is, so that the count of the
wildcard goes.
-/

namespace TaskTable

/-! ## What is taken and what is cleared -/

/-- The declared transition that a value takes, if it takes one that is declared. -/
def Block.taken? (b : Block) (value : String) : Option Transition :=
  (b.next? value).filter (· ∈ b.transitions)

/-- The transition whose count is cleared by a value: the declared one that the value takes, but the
wildcard's for `!` and `terminateRequested` in a block that does not declare them. -/
def Block.cleared? (b : Block) (value : String) : Option Transition :=
  if value ∉ b.values ∧ (value = Names.error ∨ value = Names.terminateRequested) then
    b.taken? Names.wildcard
  else b.taken? value

namespace Block

variable {b : Block} {value : String}

theorem transition?_eq_none_iff : b.transition? value = none ↔ value ∉ b.values := by
  simp [transition?, values]

/-- What is looked up in a block is declared there. -/
theorem filter_transition? (b : Block) (value : String) :
    (b.transition? value).filter (· ∈ b.transitions) = b.transition? value := by
  cases hfind : b.transition? value with
  | none => rfl
  | some tr =>
    have hmem : tr ∈ b.transitions := List.mem_of_find?_eq_some hfind
    rw [Option.filter_some, if_pos (decide_eq_true hmem)]

/-- A value that a block declares takes the transition declared for it. -/
theorem taken?_of_mem (h : value ∈ b.values) : b.taken? value = b.transition? value := by
  unfold taken? next?
  cases hdeclared : b.transition? value with
  | none => exact absurd h (transition?_eq_none_iff.1 hdeclared)
  | some tr =>
    dsimp only
    rw [← hdeclared, filter_transition?]

/-- A value that has no route of its own takes the wildcard's transition if it is not declared. -/
theorem taken?_of_ordinary (herror : value ≠ Names.error)
    (hterminate : value ≠ Names.terminateRequested) :
    b.taken? value = (b.transition? value <|> b.transition? Names.wildcard) := by
  unfold taken? next?
  cases hdeclared : b.transition? value with
  | none =>
    dsimp only
    rw [if_neg hterminate, if_neg herror, filter_transition?]
    rfl
  | some tr =>
    dsimp only
    rw [← hdeclared, filter_transition?, hdeclared]
    rfl

/-- The wildcard takes its own transition only. -/
theorem taken?_wildcard (b : Block) : b.taken? Names.wildcard = b.transition? Names.wildcard := by
  rw [taken?_of_ordinary (by decide) (by decide)]
  cases b.transition? Names.wildcard <;> rfl

/-- What is cleared is the transition declared for the value, else the wildcard's. -/
theorem cleared?_eq (b : Block) (value : String) :
    b.cleared? value = (b.transition? value <|> b.transition? Names.wildcard) := by
  unfold cleared?
  by_cases hdeclared : value ∈ b.values
  · rw [if_neg (fun h => h.1 hdeclared), taken?_of_mem hdeclared]
    cases hfind : b.transition? value with
    | none => exact absurd hdeclared (transition?_eq_none_iff.1 hfind)
    | some tr => rfl
  · by_cases hreserved : value = Names.error ∨ value = Names.terminateRequested
    · rw [if_pos ⟨hdeclared, hreserved⟩, taken?_wildcard, transition?_eq_none_iff.2 hdeclared]
      rfl
    · rw [if_neg (fun h => hreserved h.2)]
      rw [not_or] at hreserved
      exact taken?_of_ordinary hreserved.1 hreserved.2

theorem mem_of_cleared? {tr : Transition} (h : b.cleared? value = some tr) :
    tr ∈ b.transitions := by
  unfold cleared? taken? at h
  split at h
  all_goals simpa using (Option.filter_eq_some_iff.1 h).2

end Block

namespace Task

/-- Clearing a count under a compiled table fails in a state without a block. In a block it clears
the count of the transition that the value clears there, of no other transition of the table and of
no other line, and says that it did; where the value clears none it changes nothing and says so. -/
theorem clearCount_compiled {source : String} {table : Table}
    (hcompile : Table.compile source = .ok table) (t : Task) (state value : String) :
    (table.block? state = none →
        t.clearCount table state value = .error (.missingBlock state)) ∧
      ∀ b, table.block? state = some b →
        (b.cleared? value = none → t.clearCount table state value = .ok (t, false)) ∧
        ∀ tr, b.cleared? value = some tr →
          tr ∈ b.transitions ∧
          ∃ counts, t.clearCount table state value = .ok ({ t with counts }, true) ∧
            counts.get? tr.line = none ∧
            (∀ line, line ≠ tr.line → counts.get? line = t.counts.get? line) ∧
            ∀ b' ∈ table.blocks, ∀ tr' ∈ b'.transitions, tr' ≠ tr →
              counts.get? tr'.line = t.counts.get? tr'.line := by
  have hwf := Table.wellFormed_of_compile hcompile
  unfold clearCount Table.block
  refine ⟨fun hnone => by rw [hnone]; rfl, fun b hb => ?_⟩
  obtain ⟨hmem, -⟩ := hwf.mem_of_block? hb
  rw [hb]
  dsimp only [bind, Except.bind, pure, Except.pure]
  rw [← Block.cleared?_eq]
  refine ⟨fun hnone => by rw [hnone], fun tr htr => ?_⟩
  have hdeclared := Block.mem_of_cleared? htr
  have hother : ∀ line, line ≠ tr.line →
      (t.counts.erase tr.line).get? line = t.counts.get? line := by
    intro line hline
    rw [SortedMap.get?_erase, if_neg hline]
  rw [htr]
  refine ⟨hdeclared, t.counts.erase tr.line, rfl, ?_, hother, ?_⟩
  · rw [SortedMap.get?_erase, if_pos rfl]
  · -- another transition stands on another line
    intro b' hb' tr' htr' hne
    refine hother _ fun hline => hne ?_
    exact (hwf.transition_eq_of_line hb' hmem htr' hdeclared hline).2

/-! ## A wildcard that is counted -/

/-- A table whose task may poll twice, whatever its selector says. -/
def anySource : String :=
  "poll:check \x7b\n '*' poll max=2\n\x7d\n"

/-- The block of `anySource`. -/
def anyBlock : Block where
  state := "poll"
  method := "check"
  transitions := [{ value := "*", target := "poll", max := 2, line := 2 }]
  line := 1

/-- The table of `anySource`. -/
def anyTable : Table where
  blocks := [anyBlock]
  index := .ofList [("poll", 0)]
  sourceHash := Digest.sha256 anySource

theorem compile_anySource : Table.compile anySource = .ok anyTable :=
  Table.compile_of_foldlM (u := { table := { anyTable with sourceHash := "" } }) rfl rfl

/-- A task of `anyTable` that has polled once, with a count that is left from an older table. -/
def anyTask : Task :=
  { Task.create "poll" "" ⟨0, 0⟩ with
    phase := .running
    current := some "poll"
    counts := .ofList [(2, 1), (7, 4)] }

/-- Clearing the count of a value that the wildcard stands for, and clearing in no block. -/
theorem clearCount_anyTask :
    (∃ counts, anyTask.clearCount anyTable "poll" "pending" = .ok ({ anyTask with counts }, true) ∧
        counts.get? 2 = none ∧ counts.get? 7 = some 4) ∧
      anyTask.clearCount anyTable "finish" "pending" = .error (.missingBlock "finish") := by
  obtain ⟨hnone, -⟩ := clearCount_compiled compile_anySource anyTask "finish" "pending"
  obtain ⟨-, hblock⟩ := clearCount_compiled compile_anySource anyTask "poll" "pending"
  obtain ⟨-, hsome⟩ := hblock anyBlock rfl
  obtain ⟨-, counts, heq, hcleared, hother, -⟩ :=
    hsome { value := "*", target := "poll", max := 2, line := 2 } rfl
  exact ⟨⟨counts, heq, hcleared, hother 7 (by decide)⟩, hnone rfl⟩

/-- `!` takes no transition of the block, and still clears the count of the wildcard. -/
theorem clearCount_error_anyTask :
    Table.compile anySource = .ok anyTable ∧ anyTable.block? "poll" = some anyBlock ∧
      anyBlock.next? "!" = none ∧ anyTask.count 2 = 1 ∧
      anyTask.clearCount anyTable "poll" "!" =
        .ok ({ anyTask with counts := .ofList [(7, 4)] }, true) :=
  ⟨compile_anySource, rfl, rfl, rfl, rfl⟩

end Task

end TaskTable
