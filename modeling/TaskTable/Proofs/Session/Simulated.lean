import TaskTable.Proofs.Session.Limits
import TaskTable.Proofs.Session.Stilled

/-!
# Simulated tasks

While a supply stands in for the selectors, no handler is called, so a simulated task goes the same
way under any code. `Session.under` replaces the code of a session, and each operation of a
simulated session commutes with that. With the readings of the clock taken out too, what is left is
the outline of a session: two simulated sessions with one outline cannot be told apart by any course
(`course_outline`).
-/

namespace TaskTable

/-- What a task runs under: a handler with its memory, and the versions of the data. -/
structure Code (σ : Type) where
  handler : Handler σ
  memory : σ
  versions : SortedMap String Nat

/-- No code at all. -/
def Code.none : Code Unit :=
  ⟨.none, (), .empty⟩

namespace Action

variable {τ : Type}

/-- Whether an action puts the selectors back in their place. -/
def endsSimulation : Action τ → Bool
  | stopSimulating => true
  | _ => false

theorem endsSimulation_atTime (z : Instant) (a : Action τ) :
    (a.atTime z).endsSimulation = a.endsSimulation := by
  cases a <;> rfl

theorem atTime_atTime (z z' : Instant) (a : Action τ) : (a.atTime z).atTime z' = a.atTime z' := by
  cases a <;> rfl

end Action

namespace Session

variable {σ σ' τ : Type}

/-- The session under other code. -/
def under (s : Session σ τ) (c : Code σ') : Session σ' τ where
  table := s.table
  handler := c.handler
  memory := c.memory
  task := { s.task with versions := c.versions }
  supply := s.supply
  queue := s.queue
  listening := s.listening
  paused := s.paused
  pauseWait := s.pauseWait
  reports := s.reports
  troubles := s.troubles

/-- What an operation comes to, under other code. -/
def underIn {α : Type} (c : Code σ') (o : Session σ τ × α) : Session σ' τ × α :=
  (o.1.under c, o.2)

/-! ## Moves -/

theorem enterTarget_of_isSimulating {s : Session σ τ} (h : s.isSimulating = true) (now : Instant)
    (m : Move) : s.enterTarget now m = (s.move now m, none) := by
  have hmove : (s.move now m).isSimulating = true := by
    rw [move_eq_updateTask]
    exact h
  unfold enterTarget
  split
  · exact enterLive_of_isSimulating hmove _ _
  · rfl

theorem move_under (s : Session σ τ) (c : Code σ') (now : Instant) (m : Move) :
    (s.under c).move now m = (s.move now m).under c := by
  unfold move depart
  split <;> split <;> rfl

/-- No error follows on a move of a simulated task, so it does not matter how one would be
recovered from. -/
theorem follow_under {s : Session σ τ} (h : s.isSimulating = true) (c : Code σ') (now : Instant)
    (recover : Session σ τ → String → Trouble → Stepped σ τ)
    (recover' : Session σ' τ → String → Trouble → Stepped σ' τ) (m : Move) :
    (s.under c).follow now recover' m = underIn c (s.follow now recover m) := by
  rw [follow_eq, follow_eq, enterTarget_of_isSimulating h,
    enterTarget_of_isSimulating (s := s.under c) h, move_under]
  simp only [settle]
  split <;> rfl

theorem goToFailure_under {s : Session σ τ} (h : s.isSimulating = true) (c : Code σ')
    (now : Instant) (state : String) (cause : Trouble) :
    (s.under c).goToFailure now state cause = underIn c (s.goToFailure now state cause) :=
  follow_under h c now _ _ _

theorem takeError_under {s : Session σ τ} (h : s.isSimulating = true) (c : Code σ') (now : Instant)
    (b : Block) (state : String) (requested : Option String) (cause : Trouble) :
    (s.under c).takeError now b state requested cause =
      underIn c (s.takeError now b state requested cause) := by
  unfold takeError
  rw [show (s.under c).errorRoute b = s.errorRoute b from rfl, follow_under h c now (goToError now)]
  rfl

theorem takeValue_under {s : Session σ τ} (h : s.isSimulating = true) (c : Code σ') (watch : Watch)
    (now : Instant) (b : Block) (state value : String) :
    (s.under c).takeValue watch now b state value =
      underIn c (s.takeValue watch now b state value) := by
  unfold takeValue
  rw [show (s.under c).resolve b state value = s.resolve b state value from rfl]
  split
  · exact takeError_under h c now b state _ _
  · cases s.resolve b state value with
    | ok t =>
      dsimp only
      rw [follow_under h c now (goToError now)]
      rfl
    | error trouble =>
      dsimp only
      rw [show ((s.under c).note trouble).paused = (s.note trouble).paused from rfl]
      split
      · rfl
      · exact takeError_under (s := s.note trouble) h c now b state _ _

/-! ## Steps -/

section Asking

variable [Supply τ]

/-- A simulated task asks its supply. -/
theorem askValue_under {s : Session σ τ} (h : s.isSimulating = true) (c : Code σ')
    (state method : String) :
    (s.under c).askValue state method = underIn c (s.askValue state method) ∧
      (s.askValue state method).1.isSimulating = true := by
  obtain ⟨supply, hsupply⟩ := Option.isSome_iff_exists.1 h
  unfold askValue
  rw [show (s.under c).supply = s.supply from rfl, hsupply]
  dsimp only
  generalize Supply.next supply state method = given
  obtain ⟨after, answer⟩ := given
  cases answer <;> exact ⟨rfl, rfl⟩

theorem selectFrom_under {s : Session σ τ} (h : s.isSimulating = true) (c : Code σ') (watch : Watch)
    (now : Instant) (b : Block) (state : String) :
    (s.under c).selectFrom watch now b state = underIn c (s.selectFrom watch now b state) := by
  obtain ⟨hasked, hsimulating⟩ := askValue_under h c state b.method
  unfold selectFrom
  rw [show (s.under c).paused = s.paused from rfl, hasked]
  split
  · rfl
  · generalize s.askValue state b.method = asked at *
    match asked with
    | (s', .error e) => rfl
    | (s', .ok (.error trouble)) =>
      exact takeError_under (s := s'.note trouble) hsimulating c now b state _ _
    | (s', .ok (.ok value)) => exact takeValue_under hsimulating c watch now b state value

omit [Supply τ] in
theorem goOnWithoutBlock_under {s : Session σ τ} (h : s.isSimulating = true) (c : Code σ')
    (now : Instant) (state : String) (e : TableError) :
    (s.under c).goOnWithoutBlock now state e = underIn c (s.goOnWithoutBlock now state e) := by
  unfold goOnWithoutBlock
  split
  · rfl
  · split
    · rfl
    · split
      · rfl
      · exact congrArg Stepped.outcome
          (goToFailure_under (s := s.note (.dangling e)) h c now state (.dangling e))

theorem goOn_under {s : Session σ τ} (h : s.isSimulating = true) (c : Code σ') (watch : Watch)
    (now : Instant) (state : String) :
    (s.under c).goOn watch now state = underIn c (s.goOn watch now state) := by
  unfold goOn
  rw [show (s.under c).table = s.table from rfl]
  cases s.table.block state with
  | ok b => exact selectFrom_under h c watch now b state
  | error e => exact goOnWithoutBlock_under h c now state e

/-- A simulated task enters its first state and goes on from there. -/
theorem start_of_isSimulating {s : Session σ τ} (h : s.isSimulating = true) (watch : Watch)
    (now : Instant) {state : String} (hstart : s.table.startState = .ok state) :
    s.start watch now = (s.enterStart now state).goOn watch now state := by
  rw [start_eq watch now hstart, enterLive_of_isSimulating (s := s.enterStart now state) h]
  rfl

theorem start_under {s : Session σ τ} (h : s.isSimulating = true) (c : Code σ') (watch : Watch)
    (now : Instant) : (s.under c).start watch now = underIn c (s.start watch now) := by
  cases hstart : s.table.startState with
  | error e =>
    unfold start
    rw [show (s.under c).table = s.table from rfl, hstart]
    rfl
  | ok state =>
    rw [start_of_isSimulating h watch now hstart,
      start_of_isSimulating (s := s.under c) h watch now hstart]
    exact goOn_under (s := s.enterStart now state) h c watch now state

omit [Supply τ] in
theorem terminate_under {s : Session σ τ} (h : s.isSimulating = true) (c : Code σ') (now : Instant)
    (reason : String) : (s.under c).terminate now reason = underIn c (s.terminate now reason) := by
  have hlive : ∀ {ρ : Type} (s : Session ρ τ), s.isSimulating = true →
      (s.enterLive Names.terminate (some reason)).1 = s := fun s hs => by
    rw [enterLive_of_isSimulating hs]
  unfold terminate
  dsimp only
  rw [show (s.under c).task.phase = s.task.phase from rfl,
    show (s.under c).table = s.table from rfl]
  split
  · -- before the start the handler would be entered whether or not there is a block
    rw [hlive s h, hlive (s.under c) h]
    rfl
  · split
    · rw [hlive _ (by exact h), hlive _ (by exact h)]
      rfl
    · rfl

theorem stepSeeing_under {s : Session σ τ} (h : s.isSimulating = true) (c : Code σ')
    (watch : Watch) (now : Instant) :
    (s.under c).stepSeeing watch now = underIn c (s.stepSeeing watch now) := by
  unfold stepSeeing
  rw [show (s.under c).isComplete = s.isComplete from rfl,
    show (s.under c).signal? = s.signal? from rfl,
    show (s.under c).paused = s.paused from rfl,
    show (s.under c).task.phase = s.task.phase from rfl,
    show (s.under c).task.current = s.task.current from rfl]
  split
  · rfl
  · split
    · next x _ =>
      exact terminate_under (s := { s with queue := s.queue.consume s.task.id x.id }) h c now x.text
    · split
      · rfl
      · split
        · exact start_under h c watch now
        · exact start_under h c watch now
        · exact goOn_under h c watch now _

/-- A step of a simulated task leaves the code alone. -/
theorem stepSeeing_keeps_code {s : Session σ τ} (h : s.isSimulating = true) (watch : Watch)
    (now : Instant) :
    (s.stepSeeing watch now).1.memory = s.memory ∧
      (s.stepSeeing watch now).1.task.versions = s.task.versions := by
  -- the session is under its own code already
  have hunder := stepSeeing_under h ⟨s.handler, s.memory, s.task.versions⟩ watch now
  have hsame : s.stepSeeing watch now =
      underIn ⟨s.handler, s.memory, s.task.versions⟩ (s.stepSeeing watch now) := hunder
  constructor
  · rw [hsame]
    rfl
  · rw [hsame]
    rfl

theorem isSimulating_act {s : Session σ τ} (h : s.isSimulating = true) {a : Action τ}
    (ha : a.endsSimulation = false) : (s.act a).isSimulating = true := by
  cases a with
  | step watch now =>
    exact (s.stepSeeing_changes watch now).keeps (P := fun s => s.isSimulating = true)
      (fun _ _ hchange hs => hchange.isSimulating_eq.trans hs) h
  | hold | send => exact h
  | simulate supply => rfl
  | stopSimulating => cases ha
  | clearCount state value =>
    rcases s.clearCount_act state value with heq | ⟨line, heq⟩ <;> rw [heq] <;> exact h

/-- Whatever is done to a simulated task comes to the same under any code. -/
theorem act_under {s : Session σ τ} (h : s.isSimulating = true) (c : Code σ') {a : Action τ}
    (ha : a.endsSimulation = false) :
    (s.under c).act a = (s.act a).under c ∧ (s.under c).replies a = s.replies a := by
  cases a with
  | step watch now =>
    have hstep := stepSeeing_under h c watch now
    exact ⟨congrArg Prod.fst hstep, congrArg (fun o : Outcome σ' τ => [o.2]) hstep⟩
  | hold | send | simulate => exact ⟨rfl, rfl⟩
  | stopSimulating => cases ha
  | clearCount state value =>
    rw [act_clearCount, act_clearCount, show (s.under c).table = s.table from rfl]
    refine ⟨?_, rfl⟩
    split <;> rfl

theorem course_under {s : Session σ τ} (h : s.isSimulating = true) (c : Code σ')
    {as : List (Action τ)} (has : ∀ a ∈ as, a.endsSimulation = false) :
    (s.under c).course as = (s.course as).under c ∧ (s.under c).results as = s.results as := by
  induction as generalizing s with
  | nil => exact ⟨rfl, rfl⟩
  | cons a rest ih =>
    have ha := has a List.mem_cons_self
    obtain ⟨hact, hreplies⟩ := act_under h c ha
    obtain ⟨hcourse, hresults⟩ := ih (isSimulating_act h ha) fun a' ha' =>
      has a' (List.mem_cons_of_mem a ha')
    rw [← hact] at hcourse hresults
    exact ⟨hcourse, congrArg₂ (· ++ ·) hreplies hresults⟩

end Asking

/-! ## Outlines -/

/-- What is left of a simulated session without its code and without readings of the clock. -/
def outline (s : Session σ τ) (z : Instant) : Session Unit τ :=
  (s.under .none).recast (.still z) .none () s.supply s.queue

end Session

/-- Sessions without code that differ in their readings of the clock alone. -/
def Likeness.still {τ : Type} [Supply τ] (id : String) (z : Instant) : Likeness Unit Unit τ τ where
  clock := .still z
  id := id
  handler := .none
  handler' := .none
  memory _ _ := True
  supply := .same
  catalog := rfl
  enter _ _ _ _ _ _ hdesk := ⟨trivial, hdesk, rfl⟩
  select _ _ _ _ _ _ _ hdesk := ⟨trivial, hdesk, rfl⟩

namespace Session

variable {σ σ' τ : Type} [Supply τ]

theorem alike_outline (s : Session σ τ) (z : Instant) :
    Alike (.still s.task.id z) (s.under .none) (s.outline z) :=
  alike_recast rfl rfl trivial (.refl s.supply) rfl rfl

theorem Alike.outline_eq {id : String} {z : Instant} {s s' : Session Unit τ}
    (h : Alike (.still id z) s s') : s'.outline z = s.outline z := by
  have hqueue : s'.queue = s.queue := h.queue
  have hrecast := congrArg (·.under .none) (h.eq_recast h.past .none () s.supply s.queue)
  show ((s'.recast (.still z) .none () s'.supply s'.queue).under .none) = _
  rw [h.supply.eq, hqueue]
  exact hrecast

/-- Whatever is done to a simulated task is done to its outline, at one moment. -/
theorem act_outline {s : Session σ τ} (h : s.isSimulating = true) {a : Action τ}
    (ha : a.endsSimulation = false) (z : Instant) :
    (s.act a).outline z = ((s.outline z).act (a.atTime z)).outline z ∧
      (s.outline z).replies (a.atTime z) = s.replies a := by
  obtain ⟨hunder, hreplies⟩ := act_under h .none ha
  have hacts : ActsAlike (.still s.task.id z) a (a.atTime z) :=
    actsAlike_atTime rfl (fun _ => rfl) a
  obtain ⟨hact, hsame⟩ := (s.alike_outline z).act hacts
  rw [hunder] at hact
  exact ⟨hact.outline_eq.symm, hsame.trans hreplies⟩

/-- Simulated tasks with one outline do the same, each at its own time. -/
theorem act_of_outline_eq {s : Session σ τ} {s' : Session σ' τ} (h : s.isSimulating = true)
    {z : Instant} (houtline : s'.outline z = s.outline z) (a a' : Action τ)
    (ha : a.endsSimulation = false) (hsame : a'.atTime z = a.atTime z) :
    (s'.act a').outline z = (s.act a).outline z ∧ s'.replies a' = s.replies a := by
  have h' : s'.isSimulating = true := (congrArg Session.isSimulating houtline).trans h
  have ha' : a'.endsSimulation = false := by
    rw [← a'.endsSimulation_atTime z, hsame, a.endsSimulation_atTime, ha]
  obtain ⟨hact, hreplies⟩ := act_outline h ha z
  obtain ⟨hact', hreplies'⟩ := act_outline h' ha' z
  rw [hact, hact', ← hreplies, ← hreplies', houtline, hsame]
  exact ⟨rfl, rfl⟩

/-- A course of a simulated task, its outline goes through at one moment. -/
theorem course_outline {s : Session σ τ} (h : s.isSimulating = true) {as : List (Action τ)}
    (has : ∀ a ∈ as, a.endsSimulation = false) (z : Instant) :
    (s.course as).outline z = ((s.outline z).course (as.map (Action.atTime z))).outline z ∧
      (s.outline z).results (as.map (Action.atTime z)) = s.results as := by
  have hacts : List.Forall₂ (ActsAlike (.still s.task.id z)) as (as.map (Action.atTime z)) :=
    forall₂_actsAlike_atTime rfl (fun _ => rfl) as
  obtain ⟨hunder, hsame⟩ := course_under h .none has
  obtain ⟨hcourse, hresults⟩ := (s.alike_outline z).course hacts
  rw [hunder] at hcourse
  exact ⟨hcourse.outline_eq.symm, hresults.trans hsame⟩

/-- A course leaves the memory of a simulated task's handler alone. -/
theorem memory_course {s : Session σ τ} (h : s.isSimulating = true) {as : List (Action τ)}
    (has : ∀ a ∈ as, a.endsSimulation = false) : (s.course as).memory = s.memory := by
  induction as generalizing s with
  | nil => rfl
  | cons a rest ih =>
    have ha := has a List.mem_cons_self
    have hact : (s.act a).memory = s.memory := by
      cases a with
      | step watch now => exact (stepSeeing_keeps_code h watch now).1
      | hold | send | simulate | stopSimulating => rfl
      | clearCount state value =>
        rcases s.clearCount_act state value with heq | ⟨line, heq⟩ <;> rw [heq]
        rfl
    exact (ih (isSimulating_act h ha) fun a' ha' => has a' (List.mem_cons_of_mem a ha')).trans hact

/-- No handler is called in a course of a simulated task. -/
theorem log_course_eq_nil {s : Session σ τ} (h : s.isSimulating = true) {as : List (Action τ)}
    (has : ∀ a ∈ as, a.endsSimulation = false) :
    (s.logged.course (as.map Action.logged)).memory.log = [] := by
  have hlogged : s.logged.isSimulating = true := (Option.isSome_map ..).trans h
  rw [memory_course hlogged]
  · rfl
  · intro a ha
    obtain ⟨b, hb, rfl⟩ := List.mem_map.1 ha
    have hends := has b hb
    cases b <;> first | rfl | cases hends

/-! ## Different code -/

/-- Two sessions agree in all that does not belong to their code, up to readings of the clock. -/
structure Agrees (s : Session σ τ) (s' : Session σ' τ) : Prop where
  events : ∀ z, s'.task.recording.events.map (Event.withTime z) =
    s.task.recording.events.map (Event.withTime z)
  counts : s'.task.counts = s.task.counts
  current : s'.task.current = s.task.current
  phase : s'.task.phase = s.task.phase
  exit : s'.task.exit = s.task.exit
  visits : ∀ state, (s'.task.context state).visits = (s.task.context state).visits
  supply : s'.supply = s.supply
  /-- Nothing else of the task differs, but for the versions. -/
  task : ∀ z, { s'.task.retime (.still z) with versions := .empty } =
    { s.task.retime (.still z) with versions := .empty }
  queue : s'.queue = s.queue
  paused : s'.paused = s.paused
  troubles : s'.troubles = s.troubles

omit [Supply τ] in
/-- Sessions with one outline agree. -/
theorem Agrees.of_outline {s : Session σ τ} {s' : Session σ' τ}
    (h : ∀ z, s'.outline z = s.outline z) : s.Agrees s' := by
  have htask : ∀ z, { s'.task.retime (.still z) with versions := .empty } =
      { s.task.retime (.still z) with versions := .empty } := fun z =>
    (congrArg Session.task (h z) :)
  have hfirst := h ⟨0, 0⟩
  refine
    { events := fun z => (congrArg (fun t : Task => t.recording.events) (htask z) :)
      counts := (congrArg (fun s => s.task.counts) hfirst :)
      current := (congrArg (fun s => s.task.current) hfirst :)
      phase := (congrArg (fun s => s.task.phase) hfirst :)
      exit := (congrArg (fun s => s.task.exit) hfirst :)
      visits := fun state => ?_
      supply := (congrArg Session.supply hfirst :)
      task := htask
      queue := (congrArg Session.queue hfirst :)
      paused := (congrArg Session.paused hfirst :)
      troubles := (congrArg Session.troubles hfirst :) }
  have hcontext : (s'.task.retime (.still ⟨0, 0⟩)).context state =
      (s.task.retime (.still ⟨0, 0⟩)).context state :=
    (congrArg (fun s => s.task.context state) hfirst :)
  rw [Task.context_retime, Task.context_retime] at hcontext
  exact (congrArg StateContext.visits hcontext :)

/-- A task that is simulated from the start does not depend on its handler. With another handler
there is the same task, and when both go through the same, each at its own time, then no handler is
called, all steps give the same results, and the tasks agree in all but their versions and times. -/
theorem simulation_ignores_handler {u : Setup σ τ} (hnew : u.stored = none)
    (hsimulated : u.supply.isSome = true) {now : Instant} {s : Session σ τ}
    (hbuild : (u.build now).2 = .ok s) (handler : Handler σ') (memory : σ') (now' : Instant)
    {as as' : List (Action τ)} (has : ∀ a ∈ as, a.endsSimulation = false) {z : Instant}
    (hsame : as'.map (Action.atTime z) = as.map (Action.atTime z)) :
    ∃ s', ((u.withHandler handler memory).build now').2 = .ok s' ∧
      (s.logged.course (as.map Action.logged)).memory.log = [] ∧
      (s'.logged.course (as'.map Action.logged)).memory.log = [] ∧
      s'.results as' = s.results as ∧
      (s.course as).Agrees (s'.course as') := by
  obtain ⟨rfl, state, hstart⟩ := u.eq_newSession hnew hbuild
  have has' : ∀ a ∈ as', a.endsSimulation = false := by
    intro a ha
    obtain ⟨b, hb, hab⟩ := List.mem_map.1 (hsame ▸ List.mem_map_of_mem ha)
    rw [← a.endsSimulation_atTime z, ← hab, b.endsSimulation_atTime]
    exact has b hb
  have hsame' : ∀ z', as'.map (Action.atTime z') = as.map (Action.atTime z') := by
    intro z'
    have hmap := congrArg (List.map (Action.atTime z')) hsame
    simpa [Function.comp_def, Action.atTime_atTime] using hmap
  have hfirst : ((u.withHandler handler memory).newSession now').isSimulating = true := hsimulated
  refine ⟨(u.withHandler handler memory).newSession now', ?_,
    log_course_eq_nil (s := u.newSession now) hsimulated has, log_course_eq_nil hfirst has', ?_, ?_⟩
  · unfold Setup.build
    rw [show (u.withHandler handler memory).table.startState = _ from hstart,
      show (u.withHandler handler memory).stored = _ from hnew]
    rfl
  · have hresults := (course_outline (s := u.newSession now) hsimulated has z).2
    have hresults' := (course_outline hfirst has' z).2
    rw [hsame] at hresults'
    exact hresults'.symm.trans hresults
  · refine .of_outline fun z' => ?_
    rw [(course_outline (s := u.newSession now) hsimulated has z').1,
      (course_outline hfirst has' z').1, hsame']
    rfl

/-- A task of `pollTable` that is simulated by a script. -/
def pollScripted : Setup Unit ScriptedSupply :=
  { pollAgain with supply := some (.ofGroups [("poll", ["again", "done"])]) }

/-- A handler that counts its calls and fails whenever it is called. -/
def refusing : Handler Nat where
  catalog := pollAgain.handler.catalog
  versions := .ofList [("orders", 3)]
  enter n _ d := (n + 1, d, .error "refused")
  select n _ _ d := (n + 1, d, .error "refused")
  update n _ _ _ := (n + 1, some (.error "refused"))

/-- Steps of which one is held back, and a signal that comes too late. -/
def holdAndGoOn (now : Instant) : List (Action ScriptedSupply) :=
  [.step .steady now, .hold true, .step .steady now, .hold false, .step .steady now,
    .send "poll" none, .step .steady now]

/-- A handler that fails whenever it is called makes no difference to a script. -/
theorem simulation_ignores_handler_pollScripted :
    (pollScripted.newSession ⟨0, 0⟩).results (holdAndGoOn ⟨0, 0⟩) =
        [.ok (.running 0), .ok (.running 60), .ok (.completed ⟨.succeeded, none⟩ 0),
          .ok (.completed ⟨.succeeded, none⟩ 0)] ∧
      ∃ s', ((pollScripted.withHandler refusing 0).build ⟨1, 0⟩).2 = .ok s' ∧
        (s'.logged.course ((holdAndGoOn ⟨2, 0⟩).map Action.logged)).memory.log = [] ∧
        s'.results (holdAndGoOn ⟨2, 0⟩) =
          (pollScripted.newSession ⟨0, 0⟩).results (holdAndGoOn ⟨0, 0⟩) ∧
        ((pollScripted.newSession ⟨0, 0⟩).course (holdAndGoOn ⟨0, 0⟩)).Agrees
          (s'.course (holdAndGoOn ⟨2, 0⟩)) := by
  have hbuild : (pollScripted.build ⟨0, 0⟩).2 = .ok (pollScripted.newSession ⟨0, 0⟩) := rfl
  have hsimulated : ∀ a ∈ holdAndGoOn ⟨0, 0⟩, a.endsSimulation = false := by decide
  have hsame : (holdAndGoOn ⟨2, 0⟩).map (Action.atTime ⟨0, 0⟩) =
      (holdAndGoOn ⟨0, 0⟩).map (Action.atTime ⟨0, 0⟩) := rfl
  obtain ⟨s', hbuild', -, hlog, hresults, hagrees⟩ :=
    simulation_ignores_handler rfl rfl hbuild refusing 0 ⟨1, 0⟩ hsimulated hsame
  exact ⟨rfl, s', hbuild', hlog, hresults, hagrees⟩

end Session
end TaskTable
