import TaskTable.Proofs.Migration.Restart
import TaskTable.Proofs.Session.Stilled

/-!
# Tasks that start over

A stored task whose last update hook asks for a restart is from then on like a new one: no step goes
by what is left of its past, its events, marks, timers and versions
(`restarted_like_fresh`).
-/

namespace TaskTable

/-- Pasts of which the first has some events before those of the second. -/
def Past.Accord.later (before : List Event) : Past.Accord .same where
  agree p p' := p.recording.events = before ++ p'.recording.events
  record := by
    intro p p' hpast e
    rw [e.retime_same]
    show p.recording.events ++ [e] = before ++ (p'.recording.events ++ [e])
    rw [hpast, List.append_assoc]
  start hpast _ := hpast
  engage hpast _ _ := hpast
  stop hpast _ _ := hpast

/-- Sessions with the same handler that agree in all but their pasts, the first of which has some
events before those of the second. -/
def Likeness.renewed {σ τ : Type} [Supply τ] (handler : Handler σ) (id : String)
    (before : List Event) : Likeness σ σ τ τ :=
  { Likeness.same handler id with past := .later before }

namespace Session

variable {σ τ : Type}

/-- Two sessions that differ in their pasts alone, the first of them with some events before those
of the second. -/
structure Renews (before : List Event) (s s' : Session σ τ) : Prop where
  same : s.withPast s'.past = s'
  events : s.task.recording.events = before ++ s'.task.recording.events

/-- Without readings of the clock, the sessions still differ in their pasts alone. -/
theorem Renews.stilled {before : List Event} {s s' : LoggedSession σ τ} (h : Renews before s s')
    (z : Instant) : Renews (before.map (Event.withTime z)) (s.stilled z) (s'.stilled z) := by
  obtain ⟨hsame, hevents⟩ := h
  rw [← hsame] at hevents ⊢
  refine ⟨rfl, ?_⟩
  have hmap := congrArg (List.map (Event.withTime z)) hevents
  rwa [List.map_append] at hmap

variable [Supply τ] {before : List Event}

theorem Renews.alike {s s' : Session σ τ} (h : Renews before s s') :
    Alike (.renewed s.handler s.task.id before) s s' := by
  obtain ⟨hsame, hevents⟩ := h
  rw [← hsame] at hevents ⊢
  exact
    { table := rfl, handler := ⟨rfl, rfl⟩, memory := rfl, id := ⟨rfl, rfl⟩, phase := rfl
      current := rfl, counts := rfl, contexts := rfl, exit := rfl, tableHash := rfl
      past := hevents, supply := .refl s.supply, queue := rfl, listening := rfl, paused := rfl
      pauseWait := rfl, troubles := rfl }

theorem Alike.renews {handler : Handler σ} {id : String} {s s' : Session σ τ}
    (h : Alike (.renewed handler id before) s s') : Renews before s s' := by
  refine ⟨?_, h.past⟩
  have hcontexts : s'.task.contexts.mapValues (StateContext.retime .same) =
      s.task.contexts.mapValues (StateContext.retime .same) := h.contexts
  rw [StateContext.mapValues_retime_same, StateContext.mapValues_retime_same] at hcontexts
  obtain ⟨table, handler', memory, task, supply, queue, listening, paused, wait, reports, ts⟩ := s'
  simp only [withPast, Session.past, Session.mk.injEq]
  refine ⟨h.table.symm, h.handler.1.trans h.handler.2.symm, h.memory.symm, ?_, h.supply.eq.symm,
    h.queue.symm, h.listening.symm, h.paused.symm, h.pauseWait.symm, trivial, h.troubles.symm⟩
  obtain ⟨id', phase, current, counts, contexts, timers, exit, versions, recording, hash,
    created⟩ := task
  simp only [Task.mk.injEq]
  exact ⟨h.id.1.trans h.id.2.symm, h.phase.symm, h.current.symm, h.counts.symm, hcontexts.symm,
    trivial, h.exit.symm, trivial, trivial, h.tableHash.symm, trivial⟩

/-- No course goes by the past. -/
theorem Renews.course {s s' : Session σ τ} (h : Renews before s s') (as : List (Action τ)) :
    Renews before (s.course as) (s'.course as) ∧ s.results as = s'.results as := by
  have has : List.Forall₂ (ActsAlike (.renewed s.handler s.task.id before)) as as :=
    List.forall₂_same.2 fun a _ => actsAlike_refl rfl (fun _ => rfl) a
  obtain ⟨hcourse, hresults⟩ := h.alike.course has
  exact ⟨hcourse.renews, hresults.symm⟩

end Session

/-! ## Restarts -/

namespace Session

open Migration

variable {σ τ : Type} [Supply τ] {u : Setup σ τ} {t : Task} {start : String} {before : List Hook}
  {k : Hook} {m m' : σ} {calls : List (String × Option String)} {current : Option String}
  {r : Requests}

/-- A stored task that an update has started over is from then on like a new one. Say the hooks that
it is behind by can be gone along with, and the last of them asks for a restart, whatever else it
asks for. Then the session that is built for the task, and the one for a new task of the same name
under the handler as the hooks have left it, give the same results along every course, make the same
calls, record the same events, those of the stored task apart, and come to the same in all but their
pasts. For a handler that does not look at the clock this is true up to readings of the clock of
courses that do the same at different times. -/
theorem restarted_like_fresh (hstart : u.table.startState = .ok start) (hstored : u.stored = some t)
    (hplan : plan t.versions u.handler.versions.entries = before ++ [k])
    (hran : Ran u.handler u.table before u.memory t.current calls m (.ok current))
    (hlast : u.handler.update m k.name current u.table = (m', some (.ok r)))
    (hrestart : r.restart = true) (now now' : Instant) :
    ∃ s fresh, (u.build now).2 = .ok s ∧
      ({ u with stored := none, taskId := t.id, memory := m' }.build now').2 = .ok fresh ∧
      ∀ as : List (Action τ),
        s.results as = fresh.results as ∧
        Renews t.recording.events (s.logged.course (as.map Action.logged))
          (fresh.logged.course (as.map Action.logged)) ∧
        (u.handler.IgnoresClock → ∀ (as' : List (Action τ)) (z : Instant),
          as'.map (Action.atTime z) = as.map (Action.atTime z) →
            s.results as = fresh.results as' ∧
            Renews (t.recording.events.map (Event.withTime z))
              ((s.logged.course (as.map Action.logged)).stilled z)
              ((fresh.logged.course (as'.map Action.logged)).stilled z)) := by
  obtain ⟨versions, hmigrate⟩ :=
    migrate_restart (distinct_entries u.handler.versions) hplan hran hlast hrestart
  have hbuild := Setup.build_eq_migrate hstored hstart now
  rw [hmigrate] at hbuild
  have hfresh : ({ u with stored := none, taskId := t.id, memory := m' }.build now').2 =
      .ok ({ u with stored := none, taskId := t.id, memory := m' }.newSession now') := by
    unfold Setup.build
    rewrite [hstart]
    rfl
  refine ⟨_, _, congrArg Prod.snd hbuild, hfresh, fun as => ?_⟩
  generalize hs : u.session m' _ = s
  generalize hs' : Setup.newSession _ now' = fresh
  have hrenews : Renews t.recording.events s.logged fresh.logged := by
    subst hs hs'
    exact ⟨rfl, (List.append_nil _).symm⟩
  obtain ⟨hcourse, hresults⟩ := hrenews.course (as.map Action.logged)
  rw [(s.unlogged_course as).2, (fresh.unlogged_course as).2] at hresults
  refine ⟨hresults, hcourse, fun hignores as' z hsame => ?_⟩
  -- the new task goes through both courses alike
  have hhandler : fresh.handler.IgnoresClock := by
    subst hs'
    exact hignores
  obtain ⟨hstilled, hsame⟩ := stilled_course_congr hhandler hsame.symm
  rw [← hsame, ← hstilled]
  exact ⟨hresults, hcourse.stilled z⟩

/-- A task that polled until it was given up, stored with data of an older version. -/
def pollGivenUp : Task :=
  { ((pollAgain.newSession ⟨0, 0⟩).course (List.replicate 4 (.step .steady ⟨5, 0⟩))).task with
    versions := .ofList [("jobs", 1)] }

/-- The task carried on under a handler that keeps the number of visits. The first of its hooks
moves the task, the second one starts it over. -/
def pollRestarts : Setup Unit ScriptedSupply :=
  { pollAgain with
    stored := some pollGivenUp
    handler :=
      { pollAgain.handler with
        versions := .ofList [("jobs", 3)]
        enter := fun m v d =>
          (m, { d with data := d.data.insert "visits" (.int v.visits) }, .ok ())
        update := fun m hook _ _ =>
          if hook = "updateJobs2" then (m, some (.ok { newState := some "finish" }))
          else (m, some (.ok { restart := true, newState := some "poll" })) } }

/-- The task had ended with an error and three moves behind it; it starts and polls like a new
one. -/
theorem restarted_like_fresh_pollRestarts :
    pollGivenUp.phase = .finished ∧ pollGivenUp.recording.events.length = 7 ∧
      ∃ s fresh, (pollRestarts.build ⟨9, 0⟩).2 = .ok s ∧
        ({ pollRestarts with stored := none }.build ⟨0, 0⟩).2 = .ok fresh ∧
        s.results (List.replicate 3 (.step .steady ⟨9, 0⟩)) =
          fresh.results (List.replicate 3 (.step .steady ⟨2, 0⟩)) ∧
        Renews (pollGivenUp.recording.events.map (Event.withTime ⟨0, 0⟩))
          ((s.logged.course (List.replicate 3 (.step .steady ⟨9, 0⟩))).stilled ⟨0, 0⟩)
          ((fresh.logged.course (List.replicate 3 (.step .steady ⟨2, 0⟩))).stilled ⟨0, 0⟩) := by
  have hplan : plan pollGivenUp.versions pollRestarts.handler.versions.entries =
      [⟨"jobs", 2⟩] ++ [⟨"jobs", 3⟩] := rfl
  obtain ⟨s, fresh, hs, hfresh, hcourse⟩ := restarted_like_fresh (u := pollRestarts) rfl rfl hplan
    (.met rfl rfl (.done () _)) rfl rfl ⟨9, 0⟩ ⟨0, 0⟩
  have hignores : pollRestarts.handler.IgnoresClock := by
    rintro z m v v' d d' hvisit hdesk
    -- what is kept is the number of visits, which is no reading of the clock
    have hvisits : v'.visits = v.visits := (congrArg Visit.visits hvisit :)
    have hkept : ({ d' with data := d'.data.insert "visits" (.int v'.visits) } : Desk).retime
        (.still z) = ({ d with data := d.data.insert "visits" (.int v.visits) } : Desk).retime
          (.still z) := by
      rw [hvisits]
      exact congrArg
        (fun d : Desk => { d with data := d.data.insert "visits" (.int v.visits) }) hdesk
    exact ⟨⟨rfl, hkept, rfl⟩, fun _ => ⟨rfl, hdesk, rfl⟩⟩
  obtain ⟨hresults, hrenews⟩ := (hcourse (List.replicate 3 (.step .steady ⟨9, 0⟩))).2.2 hignores
    (List.replicate 3 (.step .steady ⟨2, 0⟩)) ⟨0, 0⟩ rfl
  exact ⟨rfl, rfl, s, fresh, hs, hfresh, hresults, hrenews⟩

end Session
end TaskTable
