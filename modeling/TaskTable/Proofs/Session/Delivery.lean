import TaskTable.Proofs.Session.Deeds
import TaskTable.Proofs.Session.Lifecycle

/-!
# The delivery of signals

Along a course, signals are sent by an operator and by the handlers that steps run. `Delivered` is
the balance of that: what waited for a task and what was sent to it is what was consumed and what
waits now, in the same order. A step of a task that has not ended consumes the oldest signal for it
and ends it (`signals_delivered`); signals for other tasks make no difference at all.
-/

namespace TaskTable
namespace Session

variable {σ τ : Type}

/-! ## The balance of signals -/

/-- The balance between two sessions of one task, with the signals sent and consumed in between. -/
structure Delivered (s s' : Session σ τ) (mail : List (String × Option String))
    (consumed : List Signal) : Prop where
  id : s'.task.id = s.task.id
  listening : s'.listening = s.listening
  sound : s'.queue.Sound
  nextId : s'.queue.nextId = s.queue.nextId + mail.length
  balance : ∀ task, s.queue.pending task ++ SignalQueue.postedTo s.queue.nextId mail task =
    (if task = s.task.id then consumed else []) ++ s'.queue.pending task

theorem Delivered.trans {s s' s'' : Session σ τ} {mail mail' : List (String × Option String)}
    {consumed consumed' : List Signal} (h : Delivered s s' mail consumed)
    (h' : Delivered s' s'' mail' consumed') :
    Delivered s s'' (mail ++ mail') (consumed ++ consumed') where
  id := h'.id.trans h.id
  listening := h'.listening.trans h.listening
  sound := h'.sound
  nextId := by rw [h'.nextId, h.nextId, List.length_append, Nat.add_assoc]
  balance task := by
    have hfirst := h.balance task
    have hthen := h'.balance task
    rw [h.id, h.nextId] at hthen
    rw [SignalQueue.postedTo_append, ← List.append_assoc, hfirst, List.append_assoc, hthen,
      ← List.append_assoc]
    congr 1
    split <;> rfl

/-- Nothing is sent or consumed where the queue stays as it is. -/
theorem Delivered.of_queue {s s' : Session σ τ} (hsound : s.queue.Sound)
    (hid : s'.task.id = s.task.id) (hlistening : s'.listening = s.listening)
    (hqueue : s'.queue = s.queue) : Delivered s s' [] [] where
  id := hid
  listening := hlistening
  sound := hqueue ▸ hsound
  nextId := by rw [hqueue]; rfl
  balance task := by
    rw [hqueue, ite_self]
    exact List.append_nil _

theorem Delivered.of_sendAll {s s' : Session σ τ} (hsound : s.queue.Sound)
    (hid : s'.task.id = s.task.id) (hlistening : s'.listening = s.listening)
    {mail : List (String × Option String)} (hqueue : s'.queue = s.queue.sendAll mail) :
    Delivered s s' mail [] where
  id := hid
  listening := hlistening
  sound := hqueue ▸ hsound.sendAll mail
  nextId := by rw [hqueue, SignalQueue.nextId_sendAll]
  balance task := by
    rw [hqueue, SignalQueue.pending_sendAll, ite_self]
    rfl

/-! ## What an action sends and consumes -/

section Acting

variable [Supply τ]

/-- The signals that an action sends: an operator's one, or those of the handlers that a step
runs. -/
def mail (s : Session σ τ) : Action τ → List (String × Option String)
  | .send task reason => [(task, reason)]
  | .step watch now => (s.logged.stepSeeing watch now).1.memory.log.flatMap Handler.Call.outbox
  | _ => []

/-- The signals sent along a course. -/
def mailAlong (s : Session σ τ) : List (Action τ) → List (String × Option String)
  | [] => []
  | a :: rest => s.mail a ++ (s.act a).mailAlong rest

/-- The signal that an action consumes, if it is a step that takes one. -/
def consumed (s : Session σ τ) : Action τ → List Signal
  | .step _ _ => if s.isComplete then [] else s.signal?.toList
  | _ => []

/-- The signals consumed along a course. -/
def consumedAlong (s : Session σ τ) : List (Action τ) → List Signal
  | [] => []
  | a :: rest => s.consumed a ++ (s.act a).consumedAlong rest

omit [Supply τ] in
theorem received_delivered {s : Session σ τ} (hsound : s.queue.Sound) :
    Delivered s s.received [] (if s.isComplete then [] else s.signal?.toList) := by
  unfold received
  split
  · exact .of_queue hsound rfl rfl rfl
  · cases hsignal : s.signal? with
    | none => exact .of_queue hsound rfl rfl rfl
    | some x =>
      have hown := hsound.pending_eq_cons (oldest_of_signal hsignal)
      refine ⟨rfl, rfl, hsound.consume _ _, SignalQueue.nextId_consume _ _ _, fun task => ?_⟩
      show s.queue.pending task ++ [] = _ ++ (s.queue.consume s.task.id x.id).pending task
      rw [List.append_nil]
      by_cases htask : task = s.task.id
      · rw [if_pos htask, htask]
        exact hown
      · rw [if_neg htask, SignalQueue.pending_consume, if_neg htask]
        rfl

/-- A step consumes the signal that it takes, and then sends what its handlers send. -/
theorem stepSeeing_delivered {s : Session σ τ} (hsound : s.queue.Sound) (watch : Watch)
    (now : Instant) :
    Delivered s (s.stepSeeing watch now).1 (s.mail (.step watch now))
      (s.consumed (.step watch now)) := by
  obtain ⟨hsame, -⟩ := s.unlogged_stepSeeing watch now
  obtain ⟨d, -, -, -, hdoes⟩ := stepSeeing_does (s := s.logged) (h := s.handler) rfl watch now
  have hreceived := received_delivered hsound
  have hqueue : s.logged.received.queue = s.received.queue := by
    unfold received
    rw [show s.logged.isComplete = s.isComplete from rfl,
      show s.logged.signal? = s.signal? from rfl]
    split
    · rfl
    · split <;> rfl
  rw [received_eq, hqueue] at hdoes
  have hmail : s.mail (.step watch now) = d.outbox :=
    congrArg (·.flatMap Handler.Call.outbox) hdoes.calls
  rw [hmail, ← hsame]
  -- what the handlers send comes after the signal that was taken
  have hsent : Delivered s.received ((s.logged.stepSeeing watch now).1.unlogged s.handler)
      d.outbox [] := by
    refine .of_sendAll hreceived.sound ?_ ?_ hdoes.queue <;> rw [received_eq]
    · exact hdoes.id
    · exact hdoes.listening
  have hall := hreceived.trans hsent
  rwa [List.nil_append, List.append_nil] at hall

theorem act_delivered {s : Session σ τ} (hsound : s.queue.Sound) (a : Action τ) :
    Delivered s (s.act a) (s.mail a) (s.consumed a) := by
  cases a with
  | step watch now => exact stepSeeing_delivered hsound watch now
  | send task reason =>
    have hsent : Delivered s (s.send task reason) [(task, reason)] [] := by
      refine .of_sendAll hsound ?_ ?_ ?_ <;> rfl
    exact hsent
  | hold | simulate | stopSimulating => exact .of_queue hsound rfl rfl rfl
  | clearCount state value =>
    rcases s.clearCount_act state value with h | ⟨line, h⟩ <;> rw [h] <;>
      exact .of_queue hsound rfl rfl rfl

theorem course_delivered {s : Session σ τ} (hsound : s.queue.Sound) (as : List (Action τ)) :
    Delivered s (s.course as) (s.mailAlong as) (s.consumedAlong as) := by
  induction as generalizing s with
  | nil => exact .of_queue hsound rfl rfl rfl
  | cons a rest ih =>
    have hact := act_delivered hsound a
    exact hact.trans (ih hact.sound)

/-! ## One signal ends a task -/

theorem stepSeeing_of_isComplete {s : Session σ τ} (h : s.isComplete = true) (watch : Watch)
    (now : Instant) : (s.stepSeeing watch now).1 = s := by
  unfold stepSeeing
  rw [if_pos h]

theorem isComplete_act {s : Session σ τ} (h : s.isComplete = true) (a : Action τ) :
    (s.act a).isComplete = true := by
  by_cases hstep : ∃ watch now, a = .step watch now
  · obtain ⟨watch, now, rfl⟩ := hstep
    show (s.stepSeeing watch now).1.isComplete = true
    rw [stepSeeing_of_isComplete h]
    exact h
  · have hphase : (s.act a).task.phase = s.task.phase :=
      (place_act fun watch now h => hstep ⟨watch, now, h⟩).1
    unfold isComplete
    rw [hphase]
    exact h

theorem consumedAlong_of_isComplete {s : Session σ τ} (h : s.isComplete = true)
    (as : List (Action τ)) : s.consumedAlong as = [] := by
  induction as generalizing s with
  | nil => rfl
  | cons a rest ih =>
    have hnone : s.consumed a = [] := by
      cases a with
      | step => exact if_pos h
      | _ => rfl
    rw [consumedAlong, hnone, ih (isComplete_act h a)]
    rfl

omit [Supply τ] in
/-- A task that has started is terminated for the reason of the signal. -/
theorem exit_terminate {s : Session σ τ} (h : s.task.phase ≠ .notStarted) (now : Instant)
    (reason : String) :
    (s.terminate now reason).1.task.exit = some ⟨.terminated, some reason⟩ := by
  unfold terminate
  dsimp only
  rw [if_neg h]
  split <;> rfl

/-- What becomes of a task that takes a signal. -/
structure Terminated (s : Session σ τ) (x : Signal) (o : Outcome σ τ) : Prop where
  phase : o.1.task.phase = .terminated
  result : ∃ r, o.2 = .ok r ∧ r.complete = true ∧
    (s.task.phase ≠ .notStarted → r.status = .terminated ∧ r.message = some x.text)

theorem stepSeeing_terminated {s : Session σ τ} (hongoing : s.isComplete = false) {x : Signal}
    (hsignal : s.signal? = some x) (watch : Watch) (now : Instant) :
    Terminated s x (s.stepSeeing watch now) := by
  unfold stepSeeing
  rw [hongoing, hsignal]
  simp only [Bool.false_eq_true, if_false]
  obtain ⟨hover, hphase, hresult⟩ :=
    terminate_over now { s with queue := s.queue.consume s.task.id x.id } x.text
  refine ⟨hphase, _, hresult, ?_⟩
  obtain ⟨exit, hexit, hcompleted⟩ := completed_of_over hover 0
  rw [hcompleted]
  refine ⟨rfl, fun hstarted => ?_⟩
  rw [exit_terminate (s := { s with queue := s.queue.consume s.task.id x.id }) hstarted] at hexit
  cases hexit
  exact ⟨rfl, rfl⟩

theorem length_consumedAlong (s : Session σ τ) (as : List (Action τ)) :
    (s.consumedAlong as).length ≤ 1 := by
  induction as generalizing s with
  | nil => exact Nat.zero_le 1
  | cons a rest ih =>
    have hrest : s.consumed a = [] → (s.consumedAlong (a :: rest)).length ≤ 1 := by
      intro hnone
      rw [consumedAlong, hnone]
      exact ih _
    cases a with
    | step watch now =>
      cases hcomplete : s.isComplete with
      | true => exact hrest (if_pos hcomplete)
      | false =>
        have hconsumed : s.consumed (.step watch now) = s.signal?.toList :=
          if_neg (by rw [hcomplete]; exact Bool.false_ne_true)
        cases hsignal : s.signal? with
        | none => exact hrest (by rw [hconsumed, hsignal]; rfl)
        | some x =>
          -- the signal ends the task, and no step takes another one after that
          have hover : (s.act (.step watch now)).isComplete = true := by
            unfold isComplete
            rw [show (s.act (.step watch now)).task.phase = .terminated from
              (stepSeeing_terminated hcomplete hsignal watch now).phase]
            rfl
          rw [consumedAlong, hconsumed, hsignal, consumedAlong_of_isComplete hover]
          exact Nat.le_refl 1
    | _ => exact hrest rfl

end Acting

end Session

/-! ## Signals for other tasks -/

/-- Whether an action is more than a signal for another task. -/
def Action.concerns {τ : Type} (id : String) : Action τ → Bool
  | send task _ => task = id
  | _ => true

/-- Two queues in which signals with the same reasons wait for a task, whatever waits for others. -/
structure SameMail (id : String) (q q' : SignalQueue) : Prop where
  reasons : (q'.pending id).map Signal.reason = (q.pending id).map Signal.reason
  sound : q.Sound
  sound' : q'.Sound

namespace SameMail

variable {id : String} {q q' : SignalQueue}

theorem send (h : SameMail id q q') (task : String) (reason : Option String) :
    SameMail id (q.send task reason) (q'.send task reason) := by
  refine ⟨?_, h.sound.send task reason, h.sound'.send task reason⟩
  rw [SignalQueue.pending_send, SignalQueue.pending_send]
  split
  · next heq =>
    rw [List.map_append, List.map_append, ← heq, h.reasons]
    rfl
  · exact h.reasons

theorem oldest (h : SameMail id q q') :
    (q'.oldest? id).map Signal.text = (q.oldest? id).map Signal.text := by
  have htext : ∀ q : SignalQueue, (q.oldest? id).map Signal.text =
      ((q.pending id).map Signal.reason).head?.map (·.getD "termination requested") := by
    intro q
    rw [List.head?_map, Option.map_map]
    rfl
  rw [htext, htext, h.reasons]

theorem consume (h : SameMail id q q') {x x' : Signal} (hx : q.oldest? id = some x)
    (hx' : q'.oldest? id = some x') : SameMail id (q.consume id x.id) (q'.consume id x'.id) := by
  refine ⟨?_, h.sound.consume _ _, h.sound'.consume _ _⟩
  have hreasons := h.reasons
  rw [h.sound.pending_eq_cons hx, h.sound'.pending_eq_cons hx'] at hreasons
  exact (List.cons.inj hreasons).2

end SameMail

/-- Sessions that differ in the signals for other tasks, and in how signals are numbered. -/
def Likeness.signals {σ τ : Type} [Supply τ] (handler : Handler σ) (id : String) :
    Likeness σ σ τ τ :=
  { Likeness.same handler id with
    queue :=
      { agree := SameMail id
        send := fun h => h.send
        oldest := fun h => h.oldest
        consume := fun h _ _ hx hx' => h.consume hx hx' } }

namespace Session

variable {σ τ : Type} [Supply τ]

omit [Supply τ] in
/-- The session with another queue. -/
def withQueue (s : Session σ τ) (q : SignalQueue) : Session σ τ :=
  { s with queue := q }

/-- Sessions are alike if their queues agree on the signals for the task. -/
theorem alike_signals {s : Session σ τ} {q : SignalQueue} (hsound : s.queue.Sound) (hq : q.Sound)
    (hreasons : (q.pending s.task.id).map Signal.reason =
      (s.queue.pending s.task.id).map Signal.reason) :
    Alike (.signals s.handler s.task.id) s (s.withQueue q) := by
  have heq : s.recast .same s.handler s.memory s.supply q = s.withQueue q :=
    recast_same _ _ _ _ _
  have halike : Alike (.signals s.handler s.task.id) s
      (s.recast .same s.handler s.memory s.supply q) :=
    alike_recast rfl rfl rfl (.refl s.supply) ⟨hreasons, hsound, hq⟩ rfl
  rwa [heq] at halike

theorem Alike.eq_of_signals {handler : Handler σ} {id : String} {s s' : Session σ τ}
    (h : Alike (.signals handler id) s s') : s'.withQueue {} = s.withQueue {} := by
  have hhandler : s.handler = handler := h.handler.1
  rw [h.eq_recast_same rfl h.past, h.memory, h.supply.eq, ← hhandler]
  exact congrArg (·.withQueue {}) (s.recast_same s.handler s.memory s.supply s'.queue)

/-- Leaving out the signals for other tasks makes no difference to a course. -/
theorem Alike.course_concerns {handler : Handler σ} {id : String} {s s' : Session σ τ}
    (h : Alike (.signals handler id) s s') (as : List (Action τ)) :
    Alike (.signals handler id) (s.course as) (s'.course (as.filter (·.concerns id))) ∧
      s'.results (as.filter (·.concerns id)) = s.results as := by
  induction as generalizing s s' with
  | nil => exact ⟨h, rfl⟩
  | cons a rest ih =>
    cases hconcerns : a.concerns id with
    | true =>
      obtain ⟨hact, hreplies⟩ := h.act (actsAlike_refl rfl (fun _ => rfl) a)
      obtain ⟨hcourse, hresults⟩ := ih hact
      rw [List.filter_cons_of_pos hconcerns]
      exact ⟨hcourse, congrArg₂ (· ++ ·) hreplies hresults⟩
    | false =>
      rw [List.filter_cons_of_neg (by rw [hconcerns]; exact Bool.false_ne_true)]
      cases a with
      | send task reason =>
        -- the signal is sent in the first course only, to a task of another name
        have hne : id ≠ task := fun h => by simp [Action.concerns, h] at hconcerns
        have hsent : Alike (.signals handler id) (s.send task reason) s' := by
          obtain ⟨hreasons, hsound, hsound'⟩ := h.queue
          have hpending : (s.queue.send task reason).pending id = s.queue.pending id := by
            rw [SignalQueue.pending_send, if_neg hne]
          exact { h with
            queue := ⟨hreasons.trans (congrArg _ hpending.symm), hsound.send task reason,
              hsound'⟩ }
        exact ih hsent
      | _ => cases hconcerns

omit [Supply τ] in
theorem map_logged_concerns (id : String) (as : List (Action τ)) :
    (as.map Action.logged).filter (·.concerns id) =
      (as.filter (·.concerns id)).map Action.logged := by
  have hconcerns : (fun a : Action τ => a.logged.concerns id) = (·.concerns id) := by
    funext a
    cases a <;> rfl
  rw [List.filter_map]
  exact congrArg (fun p => (as.filter p).map Action.logged) hconcerns

/-- Two courses that differ in signals for other tasks, from queues that do, come to the same. -/
theorem course_of_concerns {s : Session σ τ} (hsound : s.queue.Sound) {q : SignalQueue}
    (hq : q.Sound) (hreasons : (q.pending s.task.id).map Signal.reason =
      (s.queue.pending s.task.id).map Signal.reason) {as as' : List (Action τ)}
    (has : as'.filter (·.concerns s.task.id) = as.filter (·.concerns s.task.id)) :
    (s.withQueue q).results as' = s.results as ∧
      ((s.withQueue q).course as').withQueue {} = (s.course as).withQueue {} := by
  -- both come to what the second session comes to without these signals
  obtain ⟨hcourse, hresults⟩ := (alike_signals hsound hq hreasons).course_concerns as
  obtain ⟨hcourse', hresults'⟩ :=
    (alike_signals (s := s.withQueue q) hq hq rfl).course_concerns as'
  rw [show (s.withQueue q).task.id = s.task.id from rfl, has] at hcourse' hresults'
  exact ⟨hresults'.symm.trans hresults, hcourse'.eq_of_signals.symm.trans hcourse.eq_of_signals⟩

/-- Signals are neither lost nor duplicated nor delivered to another task, along any course. What
waited for a task at first and what was sent to it since is, in this order, what was consumed and
what still waits; at most one signal is consumed, and none of another task. A step of a task that
has not ended and for which a signal waits consumes the oldest one, also if others are sent while it
does, and ends the task: always with a result, and as terminated if it had started. Signals for
other tasks make no difference to what steps return, to the calls of handlers or to the session. -/
theorem signals_delivered {s : Session σ τ} (hlistening : s.listening = true)
    (hsound : s.queue.Sound) (as : List (Action τ)) :
    (s.logged.course (as.map Action.logged)).unlogged s.handler = s.course as ∧
    (∀ task, s.queue.pending task ++
        SignalQueue.postedTo s.queue.nextId (s.mailAlong as) task =
      (if task = s.task.id then s.consumedAlong as else []) ++ (s.course as).queue.pending task) ∧
    (s.consumedAlong as).length ≤ 1 ∧
    (∀ x rest watch now, (s.course as).isComplete = false →
      (s.course as).queue.pending s.task.id = x :: rest →
        Delivered (s.course as) ((s.course as).stepSeeing watch now).1
          ((s.course as).mail (.step watch now)) [x] ∧
        (∀ sends task,
          (((s.course as).queue.sendAll sends).consume s.task.id x.id).pending task =
            (((s.course as).queue.consume s.task.id x.id).sendAll sends).pending task) ∧
        Terminated (s.course as) x ((s.course as).stepSeeing watch now)) ∧
    ∀ (as' : List (Action τ)) (q : SignalQueue), q.Sound →
      (q.pending s.task.id).map Signal.reason = (s.queue.pending s.task.id).map Signal.reason →
      as'.filter (·.concerns s.task.id) = as.filter (·.concerns s.task.id) →
        (s.withQueue q).results as' = s.results as ∧
        ((s.withQueue q).logged.course (as'.map Action.logged)).memory.log =
          (s.logged.course (as.map Action.logged)).memory.log ∧
        ((s.withQueue q).course as').withQueue {} = (s.course as).withQueue {} := by
  have hcourse := course_delivered hsound as
  refine ⟨(s.unlogged_course as).1, hcourse.balance, s.length_consumedAlong as, ?_, ?_⟩
  · intro x rest watch now hongoing hpending
    have holdest : (s.course as).queue.oldest? s.task.id = some x := by
      rw [SignalQueue.oldest?, hpending]
      rfl
    have hsignal : (s.course as).signal? = some x := by
      rw [signal?, hcourse.listening, if_pos hlistening, hcourse.id]
      exact holdest
    have hconsumed : (s.course as).consumed (.step watch now) = [x] := by
      simp only [consumed, hongoing, hsignal, Bool.false_eq_true, if_false]
      rfl
    refine ⟨?_, fun sends task => ?_, stepSeeing_terminated hongoing hsignal watch now⟩
    · rw [← hconsumed]
      exact stepSeeing_delivered hcourse.sound watch now
    · exact hcourse.sound.pending_consume_sendAll holdest sends task
  · intro as' q hq hreasons has
    obtain ⟨hresults, hsame⟩ := course_of_concerns hsound hq hreasons has
    have hlogged : (as'.map Action.logged).filter (·.concerns s.task.id) =
        (as.map Action.logged).filter (·.concerns s.task.id) := by
      rw [map_logged_concerns, map_logged_concerns, has]
    obtain ⟨-, hcalls⟩ := course_of_concerns (s := s.logged) hsound hq hreasons hlogged
    exact ⟨hresults, congrArg (·.memory.log) hcalls, hsame⟩

/-- A task that polls, is put on hold and then terminated, with a signal for another task in
between. -/
def heldAndStopped : List (Action ScriptedSupply) :=
  [.step .steady ⟨0, 0⟩, .hold true, .send "other" none, .send "poll" (some "stop")]

/-- The task is terminated although it is on hold, and the other signal stays. -/
theorem signals_delivered_pollAgain :
    (pollAgain.newSession ⟨0, 0⟩).listening = true ∧ (pollAgain.newSession ⟨0, 0⟩).queue.Sound ∧
      ((pollAgain.newSession ⟨0, 0⟩).course heldAndStopped).paused = true ∧
      ((pollAgain.newSession ⟨0, 0⟩).course heldAndStopped).queue.pending "poll" =
        [⟨1, some "stop"⟩] ∧
      Terminated ((pollAgain.newSession ⟨0, 0⟩).course heldAndStopped) ⟨1, some "stop"⟩
        (((pollAgain.newSession ⟨0, 0⟩).course heldAndStopped).stepSeeing .steady ⟨0, 0⟩) ∧
      (pollAgain.newSession ⟨0, 0⟩).results (heldAndStopped ++ [Action.step .steady ⟨0, 0⟩]) =
        (pollAgain.newSession ⟨0, 0⟩).results
          ((heldAndStopped ++ [Action.step .steady ⟨0, 0⟩]).filter (·.concerns "poll")) := by
  have hsound : (pollAgain.newSession ⟨0, 0⟩).queue.Sound := SignalQueue.sound_empty
  have hpending : ((pollAgain.newSession ⟨0, 0⟩).course heldAndStopped).queue.pending "poll" =
      [⟨1, some "stop"⟩] := by decide
  obtain ⟨-, -, -, hstep, -⟩ := signals_delivered rfl hsound heldAndStopped
  obtain ⟨-, -, -, -, hothers⟩ := signals_delivered rfl hsound
    ((heldAndStopped ++ [Action.step .steady ⟨0, 0⟩]).filter (·.concerns "poll"))
  exact ⟨rfl, hsound, rfl, hpending, (hstep _ _ .steady ⟨0, 0⟩ rfl hpending).2.2,
    (hothers (heldAndStopped ++ [Action.step .steady ⟨0, 0⟩]) {} hsound rfl rfl).1⟩

end Session
end TaskTable
