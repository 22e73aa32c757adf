import TaskTable.Proofs.Session.Likeness

/-!
# Logged sessions

A handler and a supply can keep logs of how they are used. A session with logs goes the same way as
the session without them, so what the logs say is true of every session.
-/

namespace TaskTable

/-- A value with a log of how it was used, oldest entry first. -/
structure Logged (α ε : Type) where
  inner : α
  log : List ε := []

/-- A call of a handler: what it was told, what lay on its desk and what it left there, and what it
answered. -/
inductive Handler.Call
  | entered (visit : Visit) (given left : Desk) (answer : Except String Unit)
  | selected (method : String) (visit : Visit) (given left : Desk) (answer : Except String String)
  | updated (hook : String) (current : Option String)

namespace Handler.Call

/-- The signals that the handler sent. -/
def outbox : Handler.Call → List (String × Option String)
  | entered _ _ left _ | selected _ _ _ left _ => left.outbox
  | updated _ _ => []

/-- Whether the handler of a state was run. -/
def isEntry : Handler.Call → Bool
  | entered .. => true
  | _ => false

/-- Whether a selector was asked. -/
def isSelection : Handler.Call → Bool
  | selected .. => true
  | _ => false

end Handler.Call

/-- A value asked of a supply: the state and the method. -/
structure Question where
  state : String
  method : String
  deriving DecidableEq, Repr

/-- The handler that also logs its calls. -/
def Handler.logged {σ : Type} (h : Handler σ) : Handler (Logged σ Handler.Call) where
  catalog := h.catalog
  versions := h.versions
  enter m v d :=
    let (inner, left, answer) := h.enter m.inner v d
    (⟨inner, m.log ++ [.entered v d left answer]⟩, left, answer)
  select m method v d :=
    let (inner, left, answer) := h.select m.inner method v d
    (⟨inner, m.log ++ [.selected method v d left answer]⟩, left, answer)
  update m hook current table :=
    let (inner, result) := h.update m.inner hook current table
    (⟨inner, m.log ++ [.updated hook current]⟩, result)

namespace Handler

variable {σ : Type} (h : Handler σ) (m : Logged σ Handler.Call) (v : Visit) (d : Desk)

@[simp] theorem logged_catalog : h.logged.catalog = h.catalog :=
  rfl

/-- An entry is logged with what the handler left and answered. -/
theorem logged_enter :
    h.logged.enter m v d =
      (⟨(h.enter m.inner v d).1,
        m.log ++ [.entered v d (h.enter m.inner v d).2.1 (h.enter m.inner v d).2.2]⟩,
        (h.enter m.inner v d).2) :=
  rfl

/-- A selection is logged with what the handler left and answered. -/
theorem logged_select (method : String) :
    h.logged.select m method v d =
      (⟨(h.select m.inner method v d).1,
        m.log ++ [.selected method v d (h.select m.inner method v d).2.1
          (h.select m.inner method v d).2.2]⟩,
        (h.select m.inner method v d).2) :=
  rfl

end Handler

namespace Setup

variable {σ σ' τ : Type}

/-- The setup with another handler. -/
def withHandler (u : Setup σ τ) (handler : Handler σ') (memory : σ') : Setup σ' τ where
  table := u.table
  handler
  memory
  taskId := u.taskId
  stored := u.stored
  supply := u.supply
  queue := u.queue
  listening := u.listening
  paused := u.paused
  pauseWait := u.pauseWait

/-- The setup with a handler that logs its calls. -/
def logged (u : Setup σ τ) : Setup (Logged σ Handler.Call) τ :=
  u.withHandler u.handler.logged ⟨u.memory, []⟩

end Setup

/-- A supply that also logs what it is asked. -/
instance {τ : Type} [Supply τ] : Supply (Logged τ Question) where
  next x state method :=
    let (inner, answer) := Supply.next x.inner state method
    (⟨inner, x.log ++ [⟨state, method⟩]⟩, answer)
  rewind x := { x with inner := Supply.rewind x.inner }

/-- A session with a handler and a supply that keep logs. -/
abbrev LoggedSession (σ τ : Type) := Session (Logged σ Handler.Call) (Logged τ Question)

namespace Session

variable {σ τ : Type}

/-- The session with logs, which are empty at first. -/
def logged (s : Session σ τ) : LoggedSession σ τ where
  table := s.table
  handler := s.handler.logged
  memory := ⟨s.memory, []⟩
  task := s.task
  supply := s.supply.map (⟨·, []⟩)
  queue := s.queue
  listening := s.listening
  paused := s.paused
  pauseWait := s.pauseWait
  reports := s.reports
  troubles := s.troubles

/-- The session without its logs. -/
def unlogged (s : LoggedSession σ τ) (handler : Handler σ) : Session σ τ where
  table := s.table
  handler := handler
  memory := s.memory.inner
  task := s.task
  supply := s.supply.map (·.inner)
  queue := s.queue
  listening := s.listening
  paused := s.paused
  pauseWait := s.pauseWait
  reports := s.reports
  troubles := s.troubles

end Session

/-- The action with a log for the supply that it puts in. -/
def Action.logged {τ : Type} : Action τ → Action (Logged τ Question)
  | step watch now => .step watch now
  | hold paused => .hold paused
  | send task reason => .send task reason
  | simulate supply => .simulate ⟨supply, []⟩
  | stopSimulating => .stopSimulating
  | clearCount state value => .clearCount state value

/-! ## Logs change nothing -/

/-- Sessions that differ in their logs alone. -/
def Likeness.unlogged {σ τ : Type} [Supply τ] (handler : Handler σ) (id : String) :
    Likeness (Logged σ Handler.Call) σ (Logged τ Question) τ where
  clock := .same
  id := id
  handler := handler.logged
  handler' := handler
  memory m m' := m' = m.inner
  supply :=
    { agree := fun x x' => x' = x.inner
      next := by
        rintro x _ rfl state method
        exact ⟨rfl, rfl⟩
      rewind := by
        rintro x _ rfl
        rfl }
  catalog := handler.logged_catalog.symm
  enter := by
    rintro m _ rfl v v' d d' hvisit hdesk
    rw [Visit.eq_of_retime_same hvisit, Desk.eq_of_retime_same hdesk]
    exact ⟨rfl, rfl, rfl⟩
  select := by
    rintro m _ rfl method v v' d d' hvisit hdesk
    rw [Visit.eq_of_retime_same hvisit, Desk.eq_of_retime_same hdesk]
    exact ⟨rfl, rfl, rfl⟩

namespace Session

variable {σ τ : Type} [Supply τ]

theorem alike_logged (s : Session σ τ) :
    Alike (.unlogged s.handler s.task.id) s.logged s := by
  have hsupply : s.logged.supply.map (·.inner) = s.supply := by
    unfold logged
    cases s.supply <;> rfl
  have heq : s.logged.recast .same s.handler s.memory s.supply s.queue = s := recast_same _ _ _ _ _
  have halike : Alike (.unlogged s.handler s.task.id) s.logged
      (s.logged.recast .same s.handler s.memory (s.logged.supply.map (·.inner)) s.queue) :=
    alike_recast rfl rfl rfl (.of_map _ _) rfl rfl
  rwa [hsupply, heq] at halike

theorem Alike.unlogged_eq {handler : Handler σ} {id : String} {s : LoggedSession σ τ}
    {s' : Session σ τ} (h : Alike (.unlogged handler id) s s') : s.unlogged handler = s' := by
  rw [h.eq_recast_same rfl h.past, h.memory, h.queue, h.supply.eq_map]
  exact (s.recast_same handler s.memory.inner _ s.queue).symm

theorem Alike.unlogged_stepSeeing {handler : Handler σ} {id : String} {s : LoggedSession σ τ}
    {s' : Session σ τ} (h : Alike (.unlogged handler id) s s') (watch : Watch) (now : Instant) :
    (s.stepSeeing watch now).1.unlogged handler = (s'.stepSeeing watch now).1 ∧
      (s.stepSeeing watch now).2 = (s'.stepSeeing watch now).2 := by
  obtain ⟨hstep, hresult⟩ := h.stepSeeing watch now
  exact ⟨hstep.unlogged_eq, hresult.symm⟩

/-- A step goes the same way with logs as without. -/
theorem unlogged_stepSeeing (watch : Watch) (now : Instant) (s : Session σ τ) :
    (s.logged.stepSeeing watch now).1.unlogged s.handler = (s.stepSeeing watch now).1 ∧
      (s.logged.stepSeeing watch now).2 = (s.stepSeeing watch now).2 :=
  s.alike_logged.unlogged_stepSeeing watch now

theorem actsAlike_logged (handler : Handler σ) (id : String) (a : Action τ) :
    ActsAlike (.unlogged handler id) a.logged a := by
  cases a with
  | step watch now => exact .step watch now
  | hold paused => exact .hold paused
  | send task reason => exact .send task reason
  | simulate supply => exact .simulate rfl
  | stopSimulating => exact .stopSimulating
  | clearCount state value => exact .clearCount state value

/-- After the same course, a session with logs is like the one without. -/
theorem alike_course_logged (s : Session σ τ) (as : List (Action τ)) :
    Alike (.unlogged s.handler s.task.id) (s.logged.course (as.map Action.logged)) (s.course as) ∧
      s.results as = s.logged.results (as.map Action.logged) := by
  have has : List.Forall₂ (ActsAlike (.unlogged s.handler s.task.id)) (as.map Action.logged)
      as := by
    rw [List.forall₂_map_left_iff, List.forall₂_same]
    exact fun a _ => actsAlike_logged _ _ a
  exact s.alike_logged.course has

/-- A course goes the same way with logs as without. -/
theorem unlogged_course (s : Session σ τ) (as : List (Action τ)) :
    (s.logged.course (as.map Action.logged)).unlogged s.handler = s.course as ∧
      s.logged.results (as.map Action.logged) = s.results as := by
  obtain ⟨hcourse, hresults⟩ := s.alike_course_logged as
  exact ⟨hcourse.unlogged_eq, hresults.symm⟩

end Session

end TaskTable
