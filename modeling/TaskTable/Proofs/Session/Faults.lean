import TaskTable.Proofs.Session.Placed
import TaskTable.Proofs.Session.Simulated
import TaskTable.Supply.Any

/-!
# Scripts that give out

A script that has no value for a state makes a step fail. Such a step has no effect on a task that
is in a state, and otherwise none but that the task has entered its first state. A course of a task
that is in a state therefore goes the same way without its failed steps.
-/

namespace TaskTable

/-! ## Supplies that keep their place -/

/-- Whether a supply keeps its place when it has no value to give. -/
def Supply.KeepsPlace {τ : Type} [Supply τ] (x : τ) : Prop :=
  ∀ state method e, (Supply.next x state method).2 = .error e → (Supply.next x state method).1 = x

theorem ScriptedSupply.keepsPlace (s : ScriptedSupply) : Supply.KeepsPlace s := by
  intro state method e h
  simp only [Supply.next, next] at h ⊢
  split
  · rfl
  · next values hvalues =>
    simp only [hvalues] at h
    split
    · rfl
    · next v hv =>
      simp only [hv] at h
      cases h

theorem VerifyingSupply.keepsPlace (s : VerifyingSupply) : Supply.KeepsPlace s := by
  intro state method e h
  simp only [Supply.next, next] at h ⊢
  split
  · rfl
  · next expected value hentry =>
    simp only [hentry] at h
    split
    · next hstate => simp only [if_pos hstate] at h; cases h
    · rfl

namespace AnySupply

/-- Whether a supply is a script or a verification script. -/
def isScript : AnySupply → Bool
  | scripted _ | verifying _ => true
  | random _ => false

theorem keepsPlace_of_isScript {x : AnySupply} (h : x.isScript = true) : Supply.KeepsPlace x := by
  intro state method e he
  cases x with
  | scripted s => exact congrArg scripted (s.keepsPlace state method e he)
  | verifying s => exact congrArg verifying (s.keepsPlace state method e he)
  | random s => cases h

end AnySupply

namespace Session

variable {σ τ : Type} [Supply τ]

/-! ## Failed steps -/

section Failing

variable {s : Session σ τ} {x : τ} {watch : Watch} {now : Instant} {state : String}
  {e : SupplyError}

omit [Supply τ] in
theorem goOnWithoutBlock_ne_supply (now : Instant) (s : Session σ τ) (state : String)
    (cause : TableError) (e : SupplyError) :
    (s.goOnWithoutBlock now state cause).2 ≠ .error (.supply e) := by
  unfold goOnWithoutBlock
  split
  · nofun
  · split
    · nofun
    · split <;> nofun

omit [Supply τ] in
theorem takeValue_ok (watch : Watch) (now : Instant) (s : Session σ τ) (b : Block)
    (state value : String) : ∃ r, (s.takeValue watch now b state value).2 = .ok r := by
  have htakes := s.takeValue_takes watch now b state value
  generalize s.takeValue watch now b state value = o at *
  cases htakes with
  | error | taken | held | refused => exact ⟨_, rfl⟩

/-- Where the supply gives out in a state, nothing has happened. -/
theorem goOn_of_fault (hsupply : s.supply = some x) (hkeeps : Supply.KeepsPlace x)
    (h : (s.goOn watch now state).2 = .error (.supply e)) : (s.goOn watch now state).1 = s := by
  unfold goOn at h ⊢
  cases hblock : s.table.block state with
  | error cause =>
    rw [hblock] at h
    exact absurd h (s.goOnWithoutBlock_ne_supply now state cause e)
  | ok b =>
    rw [hblock] at h
    have hnext := hkeeps state b.method
    simp only [selectFrom, askValue, hsupply] at h ⊢
    split
    · rfl
    · next hfree =>
      rw [if_neg hfree] at h
      generalize Supply.next x state b.method = given at hnext h ⊢
      obtain ⟨after, answer⟩ := given
      cases answer with
      | error cause =>
        have hafter : after = x := hnext cause rfl
        show { s with supply := some after } = s
        rw [hafter, ← hsupply]
      | ok value =>
        -- a value that is given can be taken, or the step reports what keeps it from that
        obtain ⟨r, hr⟩ :=
          takeValue_ok watch now { s with supply := some after } b state value
        rw [show (takeValue watch now { s with supply := some after } b state value).2 = _ from h]
          at hr
        cases hr

/-- Where the supply gives out in the first step, the task has entered its first state. -/
theorem start_of_fault (hsupply : s.supply = some x) (hkeeps : Supply.KeepsPlace x)
    (hstart : s.table.startState = .ok state)
    (h : (s.start watch now).2 = .error (.supply e)) :
    (s.start watch now).1 = s.enterStart now state := by
  have hsimulating : s.isSimulating = true := Option.isSome_iff_exists.2 ⟨x, hsupply⟩
  rw [start_of_isSimulating hsimulating watch now hstart] at h ⊢
  exact goOn_of_fault (s := s.enterStart now state) hsupply hkeeps h

/-- A step only fails if it gets to ask for a value. -/
theorem stepSeeing_asks (h : (s.stepSeeing watch now).2 = .error (.supply e)) :
    s.isComplete = false ∧ s.signal? = none ∧ watch .atStart s.paused = false := by
  unfold stepSeeing at h
  split at h
  · cases h
  · next hongoing =>
    split at h
    · cases h
    · next hsignal =>
      split at h
      · cases h
      · next hfree => exact ⟨by simpa using hongoing, hsignal, by simpa using hfree⟩

end Failing

/-! ## Courses without failed steps -/

section Failures

variable {s : Session σ AnySupply}

/-- Whether an action is a step that fails because a script gives out. -/
def fails (s : Session σ AnySupply) : Action AnySupply → Bool
  | .step watch now =>
    match s.supply, (s.stepSeeing watch now).2 with
    | some x, .error (.supply _) => x.isScript
    | _, _ => false
  | _ => false

/-- A course without the steps of it that fail because a script gives out. -/
def unfailing (s : Session σ AnySupply) : List (Action AnySupply) → List (Action AnySupply)
  | [] => []
  | a :: rest => if s.fails a then (s.act a).unfailing rest else a :: (s.act a).unfailing rest

/-- The results of a course, but for those of the steps that fail because a script gives out. -/
def unfailingResults (s : Session σ AnySupply) :
    List (Action AnySupply) → List (Except Fault StepResult)
  | [] => []
  | a :: rest =>
    (if s.fails a then [] else s.replies a) ++ (s.act a).unfailingResults rest

theorem exists_of_fails {a : Action AnySupply} (h : s.fails a = true) :
    ∃ watch now x e, a = .step watch now ∧ s.supply = some x ∧ Supply.KeepsPlace x ∧
      (s.stepSeeing watch now).2 = .error (.supply e) := by
  cases a with
  | step watch now =>
    simp only [fails] at h
    split at h
    · next x e hsupply hfault =>
      exact ⟨watch, now, x, e, rfl, hsupply, AnySupply.keepsPlace_of_isScript h, hfault⟩
    · cases h
  | hold | send | simulate | stopSimulating | clearCount => cases h

/-- A step that fails in a state does nothing. -/
theorem act_of_fails {a : Action AnySupply} (h : s.fails a = true) (hplaced : s.task.Placed)
    (hcurrent : s.task.current ≠ none) : s.act a = s := by
  obtain ⟨watch, now, x, e, rfl, hsupply, hkeeps, hfault⟩ := exists_of_fails h
  obtain ⟨hongoing, hsignal, hfree⟩ := stepSeeing_asks hfault
  obtain ⟨state, hstate⟩ := Option.ne_none_iff_exists'.1 hcurrent
  have hrunning : s.task.phase = .running :=
    phase_eq_running hongoing fun hfresh => hcurrent (hplaced.fresh hfresh).1
  show (s.stepSeeing watch now).1 = s
  rw [stepSeeing_goOn hsignal hfree hrunning hstate] at hfault ⊢
  exact goOn_of_fault hsupply hkeeps hfault

/-- A step that fails before the task has started enters the first state and does nothing else. -/
theorem act_of_fails_fresh {a : Action AnySupply} (h : s.fails a = true)
    (hfresh : s.task.phase = .notStarted) :
    ∃ watch now state, a = .step watch now ∧ s.table.startState = .ok state ∧
      s.act a = s.enterStart now state := by
  obtain ⟨watch, now, x, e, rfl, hsupply, hkeeps, hfault⟩ := exists_of_fails h
  obtain ⟨hongoing, hsignal, hfree⟩ := stepSeeing_asks hfault
  have hstep : s.stepSeeing watch now = s.start watch now :=
    stepSeeing_start hongoing hsignal hfree hfresh
  cases hstart : s.table.startState with
  | error cause =>
    rw [hstep] at hfault
    unfold start at hfault
    rw [hstart] at hfault
    cases hfault
  | ok state =>
    refine ⟨watch, now, state, rfl, rfl, ?_⟩
    show (s.stepSeeing watch now).1 = _
    rw [hstep] at hfault ⊢
    exact start_of_fault hsupply hkeeps hstart hfault

/-- For a task that is in a state, failed steps make no difference to a course at all. -/
theorem course_unfailing (hplaced : s.task.Placed) (hcurrent : s.task.current ≠ none)
    (as : List (Action AnySupply)) :
    s.course as = s.course (s.unfailing as) ∧
      s.results (s.unfailing as) = s.unfailingResults as := by
  induction as generalizing s with
  | nil => exact ⟨rfl, rfl⟩
  | cons a rest ih =>
    obtain ⟨hcourse, hresults⟩ := ih (placed_act hplaced a) (current_course hcurrent [a])
    simp only [unfailing, unfailingResults]
    split
    · next hfails =>
      have hsame := act_of_fails hfails hplaced hcurrent
      rw [hsame] at hcourse hresults ⊢
      exact ⟨(congrArg (course · rest) hsame).trans hcourse, hresults⟩
    · exact ⟨hcourse, congrArg (s.replies a ++ ·) hresults⟩

end Failures

end Session
end TaskTable
