import TaskTable.Session.Calls

/-!
# What calls come to

A handler can be missing, fail or succeed, and a supply can give out. `Enters` and `Asks` list the
ways in which a state is entered and a value is asked for, each with the session that is left and
the answer, so that proofs about steps go by these cases and do not open the calls again.
-/

namespace TaskTable
namespace Session

variable {σ τ : Type}

/-- What a handler hands back when it is called in a state: the memory and the desk that it leaves
once the state is entered or one of its selectors is asked. -/
inductive HandsBack (s : Session σ τ) (state : String) (memory : σ) (desk : Desk) : Prop
  | entered (cause : Option String) (answer : Except String Unit)
      (call : s.handler.enter s.memory (s.visit state cause) (s.desk state) =
        (memory, desk, answer))
  | selected (method : String) (answer : Except String String)
      (call : s.handler.select s.memory method (s.visit state none) (s.desk state) =
        (memory, desk, answer))

/-! ## Entering a state -/

/-- The ways in which the handler of a state runs, with what each comes to. -/
inductive Enters (s : Session σ τ) (state : String) (cause : Option String) :
    Session σ τ × Option Trouble → Prop
  /-- The task is simulated, or the state is built in and has no handler. -/
  | passed : Enters s state cause (s, none)
  | succeeded (memory : σ) (desk : Desk) (live : s.supply = none)
      (left : s.HandsBack state memory desk) :
      Enters s state cause (s.afterCall state memory desk, none)
  | failed (memory : σ) (desk : Desk) (message : String) (live : s.supply = none)
      (failed : ∃ memory visit desk, (s.handler.enter memory visit desk).2.2 = .error message)
      (left : s.HandsBack state memory desk) :
      Enters s state cause (s.afterCall state memory desk, some (.stateFailed state message))
  | missing (live : s.supply = none) (missing : s.handler.catalog.hasState state = false)
      (needed : Names.isBuiltin state = false) :
      Enters s state cause (s, some (.noStateHandler state))

theorem enterLive_enters (s : Session σ τ) (state : String) (cause : Option String) :
    Enters s state cause (s.enterLive state cause) := by
  unfold enterLive isSimulating
  split
  · exact .passed
  · next hlive =>
    have hlive : s.supply = none := by simpa using hlive
    unfold callState
    split
    · split
      · next memory desk he => exact .succeeded memory desk hlive (.entered cause (.ok ()) he)
      · next memory desk message he =>
        exact .failed memory desk message hlive
          ⟨s.memory, s.visit state cause, s.desk state, congrArg (·.2.2) he⟩
          (.entered cause (.error message) he)
    · next hstate =>
      split
      · exact .passed
      · next hbuiltin => exact .missing hlive (by simpa using hstate) (by simpa using hbuiltin)

/-- In a simulation no handler runs. -/
theorem enterLive_of_isSimulating {s : Session σ τ} (h : s.isSimulating = true) (state : String)
    (cause : Option String) : s.enterLive state cause = (s, none) := by
  unfold enterLive
  rw [if_pos h]

/-- Entering a state leaves a session as it is, but for the memory and the desk of a handler. -/
theorem enterLive_eq (s : Session σ τ) (state : String) (cause : Option String) :
    (s.enterLive state cause).1 = s ∨ s.supply = none ∧
      ∃ memory desk, s.HandsBack state memory desk ∧
        (s.enterLive state cause).1 = s.afterCall state memory desk := by
  have henters := s.enterLive_enters state cause
  generalize s.enterLive state cause = entered at *
  cases henters with
  | passed | missing => exact .inl rfl
  | succeeded memory desk live left | failed memory desk _ live _ left =>
    exact .inr ⟨live, memory, desk, left, rfl⟩

/-! ## Asking for a value -/

/-- What the selector of a method can give: some answer of the handler's selector, or `''` where
the built-in one stands in. -/
def Gives (s : Session σ τ) (method value : String) : Prop :=
  if s.handler.catalog.hasSelector method then
    ∃ memory visit desk, (s.handler.select memory method visit desk).2.2 = .ok value
  else method = Names.emptyTransition ∧ value = ""

/-- The ways in which a value is asked for, with what each comes to. -/
inductive Asks (s : Session σ τ) (state method : String) :
    Session σ τ × Except SupplyError (Except Trouble String) → Prop
  | supplied (before after : τ) (value : String) (simulated : s.supply = some before) :
      Asks s state method ({ s with supply := some after }, .ok (.ok value))
  | gaveOut (before after : τ) (e : SupplyError) (simulated : s.supply = some before) :
      Asks s state method ({ s with supply := some after }, .error e)
  | selected (memory : σ) (desk : Desk) (value : String) (live : s.supply = none)
      (given : s.Gives method value) (left : s.HandsBack state memory desk) :
      Asks s state method (s.afterCall state memory desk, .ok (.ok value))
  /-- The built-in selector stands in. -/
  | standIn (live : s.supply = none) (given : s.Gives method "") :
      Asks s state method (s, .ok (.ok ""))
  | failed (memory : σ) (desk : Desk) (message : String) (live : s.supply = none)
      (failed : ∃ memory visit desk,
        (s.handler.select memory method visit desk).2.2 = .error message)
      (left : s.HandsBack state memory desk) :
      Asks s state method
        (s.afterCall state memory desk, .ok (.error (.selectorFailed method message)))
  | missing (live : s.supply = none) (missing : s.handler.catalog.hasSelector method = false)
      (needed : method ≠ Names.emptyTransition) :
      Asks s state method (s, .ok (.error (.noSelector method)))

theorem askValue_asks [Supply τ] (s : Session σ τ) (state method : String) :
    Asks s state method (s.askValue state method) := by
  unfold askValue
  cases hsupply : s.supply with
  | some supply =>
    dsimp only
    split
    · exact .supplied supply _ _ hsupply
    · exact .gaveOut supply _ _ hsupply
  | none =>
    dsimp only
    unfold callSelector
    split
    · next hselector =>
      split
      · next memory desk value hs =>
        refine .selected memory desk value hsupply ?_ (.selected method (.ok value) hs)
        rw [Gives, if_pos hselector]
        exact ⟨s.memory, s.visit state none, s.desk state, congrArg (·.2.2) hs⟩
      · next memory desk message hs =>
        exact .failed memory desk message hsupply
          ⟨s.memory, s.visit state none, s.desk state, congrArg (·.2.2) hs⟩
          (.selected method (.error message) hs)
    · next hselector =>
      split
      · next hmethod =>
        refine .standIn hsupply ?_
        rw [Gives, if_neg hselector]
        exact ⟨hmethod, rfl⟩
      · next hmethod => exact .missing hsupply (by simpa using hselector) hmethod

end Session
end TaskTable
