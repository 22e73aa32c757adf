import TaskTable.Proofs.Session.Logged

/-!
# Courses by different clocks

Two courses that do the same at different times come to the same, up to readings of the clock, if
the handler does not look at these: each of them is alike to the course that does it all at one
moment (`stilled_course`). A handler that does not look at readings may still pass them on, forget
them or write others in their place.
-/

namespace TaskTable

/-- Whether a handler comes to the same whatever readings of the clock it is told and finds on its
desk: what it keeps and answers is the same, and what it leaves is the same up to readings. -/
def Handler.IgnoresClock {σ : Type} (h : Handler σ) : Prop :=
  ∀ (z : Instant) (m : σ) (v v' : Visit) (d d' : Desk),
    v'.retime (.still z) = v.retime (.still z) → d'.retime (.still z) = d.retime (.still z) →
      LeftAlike (.still z) (· = ·) (h.enter m v d) (h.enter m v' d') ∧
        ∀ method, LeftAlike (.still z) (· = ·) (h.select m method v d) (h.select m method v' d')

/-- The call by another clock. -/
def Handler.Call.retime (c : Clock) : Handler.Call → Handler.Call
  | entered visit given left answer =>
    .entered (visit.retime c) (given.retime c) (left.retime c) answer
  | selected method visit given left answer =>
    .selected method (visit.retime c) (given.retime c) (left.retime c) answer
  | updated hook current => .updated hook current

/-- The action at another time. -/
def Action.atTime {τ : Type} (z : Instant) : Action τ → Action τ
  | step watch _ => .step watch z
  | a => a

/-- A log without its readings of the clock. -/
def Logged.stilled {σ : Type} (z : Instant) (m : Logged σ Handler.Call) : Logged σ Handler.Call :=
  ⟨m.inner, m.log.map (Handler.Call.retime (.still z))⟩

theorem Handler.Call.retime_retime (c : Clock) (call : Handler.Call) :
    (call.retime c).retime c = call.retime c := by
  cases call <;> simp only [retime, Visit.retime_retime, Desk.retime_retime]

theorem Logged.stilled_stilled {σ : Type} (z : Instant) (m : Logged σ Handler.Call) :
    (m.stilled z).stilled z = m.stilled z := by
  simp only [stilled, List.map_map, Function.comp_def, Handler.Call.retime_retime]

namespace Handler

variable {σ : Type} {h : Handler σ}

/-- Two logs of one handler that differ in readings of the clock still do once a call is added to
each that differs in these. -/
theorem stilled_push {z : Instant} {m m' : Logged σ Call} (hlog : m'.stilled z = m.stilled z)
    {inner inner' : σ} (hinner : inner = inner') {c c' : Call}
    (hcall : c'.retime (.still z) = c.retime (.still z)) :
    (⟨inner', m'.log ++ [c']⟩ : Logged σ Call).stilled z =
      (⟨inner, m.log ++ [c]⟩ : Logged σ Call).stilled z := by
  have hcalls : m'.log.map (Call.retime (.still z)) = m.log.map (Call.retime (.still z)) :=
    congrArg Logged.log hlog
  simp only [Logged.stilled, List.map_append, List.map_singleton, hcalls, hcall, hinner]

variable {z : Instant} {m m' : Logged σ Call} {v v' : Visit} {d d' : Desk}

/-- By another clock, an entry with a log comes to the same. -/
theorem IgnoresClock.logged_enter (hignores : h.IgnoresClock) (hlog : m'.stilled z = m.stilled z)
    (hvisit : v'.retime (.still z) = v.retime (.still z))
    (hdesk : d'.retime (.still z) = d.retime (.still z)) :
    LeftAlike (.still z) (fun m m' => m'.stilled z = m.stilled z) (h.logged.enter m v d)
      (h.logged.enter m' v' d') := by
  have hinner : m'.inner = m.inner := (congrArg Logged.inner hlog :)
  obtain ⟨hmemory, hleft, hanswer⟩ := (hignores z m.inner v v' d d' hvisit hdesk).1
  rw [h.logged_enter, h.logged_enter, hinner]
  refine ⟨stilled_push hlog hmemory ?_, hleft, hanswer⟩
  simp only [Call.retime, hvisit, hdesk, hleft, hanswer]

/-- By another clock, a selection with a log comes to the same. -/
theorem IgnoresClock.logged_select (hignores : h.IgnoresClock) (hlog : m'.stilled z = m.stilled z)
    (method : String) (hvisit : v'.retime (.still z) = v.retime (.still z))
    (hdesk : d'.retime (.still z) = d.retime (.still z)) :
    LeftAlike (.still z) (fun m m' => m'.stilled z = m.stilled z) (h.logged.select m method v d)
      (h.logged.select m' method v' d') := by
  have hinner : m'.inner = m.inner := (congrArg Logged.inner hlog :)
  obtain ⟨hmemory, hleft, hanswer⟩ := (hignores z m.inner v v' d d' hvisit hdesk).2 method
  rw [h.logged_select, h.logged_select, hinner]
  refine ⟨stilled_push hlog hmemory ?_, hleft, hanswer⟩
  simp only [Call.retime, hvisit, hdesk, hleft, hanswer]

end Handler

/-- Sessions that differ in their readings of the clock alone. -/
def Likeness.stilled {σ τ : Type} [Supply τ] {h : Handler σ} (hignores : h.IgnoresClock)
    (id : String) (z : Instant) :
    Likeness (Logged σ Handler.Call) (Logged σ Handler.Call) (Logged τ Question)
      (Logged τ Question) where
  clock := .still z
  id := id
  handler := h.logged
  handler' := h.logged
  memory m m' := m'.stilled z = m.stilled z
  supply := .same
  catalog := rfl
  enter hlog _ _ _ _ hvisit hdesk := hignores.logged_enter hlog hvisit hdesk
  select hlog method _ _ _ _ hvisit hdesk := hignores.logged_select hlog method hvisit hdesk

namespace Session

variable {σ τ : Type}

/-- The session with one moment in place of all readings of the clock, in its log as in its task,
and without the lengths of the times reported. -/
def stilled (s : LoggedSession σ τ) (z : Instant) : LoggedSession σ τ :=
  s.recast (.still z) s.handler (s.memory.stilled z) s.supply s.queue

variable [Supply τ]

/-- An action does the same to sessions of which the second has a clock that stands still. -/
theorem actsAlike_atTime {σ' : Type} {l : Likeness σ σ' τ τ} {z : Instant}
    (hclock : l.clock = .still z) (hsupply : ∀ x, l.supply.agree x x) (a : Action τ) :
    ActsAlike l a (a.atTime z) := by
  cases a with
  | step watch now =>
    have hstep : ActsAlike l (.step watch now) (.step watch (l.clock.reading now)) :=
      .step watch now
    rwa [hclock] at hstep
  | hold paused => exact .hold paused
  | send task reason => exact .send task reason
  | simulate supply => exact .simulate (hsupply supply)
  | stopSimulating => exact .stopSimulating
  | clearCount state value => exact .clearCount state value

theorem forall₂_actsAlike_atTime {σ' : Type} {l : Likeness σ σ' τ τ} {z : Instant}
    (hclock : l.clock = .still z) (hsupply : ∀ x, l.supply.agree x x) (as : List (Action τ)) :
    List.Forall₂ (ActsAlike l) as (as.map (Action.atTime z)) := by
  rw [List.forall₂_map_right_iff, List.forall₂_same]
  exact fun a _ => actsAlike_atTime hclock hsupply a

variable {h : Handler σ} {hignores : h.IgnoresClock} {task : String} {z : Instant}

theorem alike_stilled {s : LoggedSession σ τ} (hlogged : s.handler = h.logged) :
    Alike (.stilled hignores s.task.id z) s (s.stilled z) := by
  have halike : Alike (.stilled hignores s.task.id z) s
      (s.recast (.still z) h.logged (s.memory.stilled z) s.supply s.queue) :=
    alike_recast hlogged rfl (s.memory.stilled_stilled z) (.refl s.supply) rfl rfl
  rwa [← hlogged] at halike

theorem Alike.stilled_eq {s s' : LoggedSession σ τ}
    (halike : Alike (.stilled hignores task z) s s') : s'.stilled z = s.stilled z := by
  have hmemory : s'.memory.stilled z = s.memory.stilled z := halike.memory
  have hqueue : s'.queue = s.queue := halike.queue
  rw [stilled, stilled, halike.handler.1, halike.handler.2, hmemory, halike.supply.eq, hqueue]
  exact halike.eq_recast halike.past _ _ _ _

/-- Up to readings of the clock, a course comes to the same as if all was done at one moment. -/
theorem stilled_course {s : LoggedSession σ τ} (hlogged : s.handler = h.logged)
    (hignores : h.IgnoresClock) (z : Instant) (as : List (Action (Logged τ Question))) :
    (s.course as).stilled z = ((s.stilled z).course (as.map (Action.atTime z))).stilled z ∧
      s.results as = (s.stilled z).results (as.map (Action.atTime z)) := by
  have has : List.Forall₂ (ActsAlike (.stilled hignores s.task.id z)) as
      (as.map (Action.atTime z)) := forall₂_actsAlike_atTime rfl (fun _ => rfl) as
  obtain ⟨hcourse, hresults⟩ := (alike_stilled hlogged).course has
  exact ⟨hcourse.stilled_eq.symm, hresults.symm⟩

/-- Courses that do the same at different times come to the same up to readings of the clock. -/
theorem stilled_course_congr {s : Session σ τ} (hignores : s.handler.IgnoresClock) {z : Instant}
    {as bs : List (Action τ)} (hsame : as.map (Action.atTime z) = bs.map (Action.atTime z)) :
    (s.logged.course (as.map Action.logged)).stilled z =
        (s.logged.course (bs.map Action.logged)).stilled z ∧ s.results as = s.results bs := by
  have hlogged : (as.map Action.logged).map (Action.atTime z) =
      (bs.map Action.logged).map (Action.atTime z) := by
    have hatTime : ∀ a : Action τ, a.logged.atTime z = (a.atTime z).logged := by
      intro a
      cases a <;> rfl
    have hmap : ∀ as : List (Action τ), (as.map Action.logged).map (Action.atTime z) =
        (as.map (Action.atTime z)).map Action.logged := by
      intro as
      simp only [List.map_map]
      exact List.map_congr_left fun a _ => hatTime a
    rw [hmap, hmap, hsame]
  obtain ⟨hcourse, hresults⟩ :=
    stilled_course (s := s.logged) rfl hignores z (as.map Action.logged)
  obtain ⟨hcourse', hresults'⟩ :=
    stilled_course (s := s.logged) rfl hignores z (bs.map Action.logged)
  rw [(s.unlogged_course as).2] at hresults
  rw [(s.unlogged_course bs).2] at hresults'
  rw [hcourse, hcourse', hresults, hresults', hlogged]
  exact ⟨rfl, rfl⟩

end Session
end TaskTable
