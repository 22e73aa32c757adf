import TaskTable.Proofs.Session.Logged
import TaskTable.Proofs.Signals

/-!
# What a step does

`Does` says what an operation has done to a logged session: the calls made, the values asked for,
the signals sent and the events recorded. A step makes at most three moves, runs at most one handler
for each state that it enters, and asks for one value at most (`stepSeeing_does`).
-/

namespace TaskTable

/-! ## What operations do -/

/-- What was done to a session: the calls made, the values asked for and the events recorded. -/
structure Deeds where
  calls : List Handler.Call := []
  questions : List Question := []
  events : List Event := []

namespace Deeds

/-- First one, then the other. -/
def andThen (d e : Deeds) : Deeds where
  calls := d.calls ++ e.calls
  questions := d.questions ++ e.questions
  events := d.events ++ e.events

/-- The signals that handlers sent. -/
def outbox (d : Deeds) : List (String × Option String) :=
  d.calls.flatMap Handler.Call.outbox

/-- How many handlers of states ran. -/
def entries (d : Deeds) : Nat :=
  d.calls.countP Handler.Call.isEntry

/-- How often a selector or a supply was asked for a value. -/
def consultations (d : Deeds) : Nat :=
  d.calls.countP Handler.Call.isSelection + d.questions.length

@[simp] theorem outbox_andThen (d e : Deeds) : (d.andThen e).outbox = d.outbox ++ e.outbox :=
  List.flatMap_append

@[simp] theorem entries_andThen (d e : Deeds) : (d.andThen e).entries = d.entries + e.entries :=
  List.countP_append

@[simp] theorem consultations_andThen (d e : Deeds) :
    (d.andThen e).consultations = d.consultations + e.consultations := by
  simp only [consultations, andThen, List.countP_append, List.length_append]
  omega

end Deeds

/-- A transition and the state that it leads to, as they are recorded. -/
structure Crossing where
  origin : String
  method : String
  value : String
  requested : Option String
  kind : Origin
  target : String
  executed : Bool
  time : Instant

/-- The two events of a crossing. -/
def Crossing.events (c : Crossing) : List Event :=
  [.transition c.origin c.method c.value c.requested c.kind c.time,
    .state c.target c.executed c.time]

/-- The crossing that a move makes. -/
def Session.Move.crossing (now : Instant) (m : Session.Move) : Crossing where
  origin := m.origin
  method := m.method
  value := m.value
  requested := m.requested
  kind := m.kind
  target := m.transition.target
  executed := m.transition.exec
  time := now

/-- At most so many crossings, of which the last one that the limit allows leads to `failure`. -/
def Crossing.UpTo (limit : Nat) (cs : List Crossing) : Prop :=
  cs.length ≤ limit ∧ ∀ c, cs[limit - 1]? = some c → c.target = Names.failure

/-- Deeds that come to these crossings: handlers of states run at most so often, values are asked
for at most so often, and no other calls are made. -/
structure Deeds.Within (d : Deeds) (entries consultations : Nat) (cs : List Crossing) : Prop where
  events : d.events = cs.flatMap Crossing.events
  entries : d.entries ≤ entries
  consultations : d.consultations ≤ consultations
  handled : ∀ c ∈ d.calls, c.isEntry = true ∨ c.isSelection = true

namespace Crossing

theorem upTo_one {c : Crossing} (h : c.target = Names.failure) : UpTo 1 [c] := by
  refine ⟨Nat.le_refl 1, fun c' hc => ?_⟩
  cases hc
  exact h

/-- Fewer crossings than a limit allows have no last one. -/
theorem upTo_of_lt {limit : Nat} {cs : List Crossing} (h : cs.length < limit) : UpTo limit cs := by
  refine ⟨Nat.le_of_lt h, fun c hc => ?_⟩
  rw [List.getElem?_eq_none (by omega)] at hc
  cases hc

theorem UpTo.cons {limit : Nat} {cs : List Crossing} (h : UpTo (limit + 1) cs) (c : Crossing) :
    UpTo (limit + 2) (c :: cs) :=
  ⟨Nat.succ_le_succ h.1, h.2⟩

theorem UpTo.mono {limit limit' : Nat} {cs : List Crossing} (h : UpTo limit cs)
    (hle : limit ≤ limit') : UpTo limit' cs := by
  rcases Nat.eq_or_lt_of_le hle with rfl | hlt
  · exact h
  · exact upTo_of_lt (Nat.lt_of_le_of_lt h.1 hlt)

end Crossing

namespace Deeds

variable {d e : Deeds} {n n' k k' : Nat} {cs cs' : List Crossing}

theorem Within.andThen (h : d.Within n k cs) (h' : e.Within n' k' cs') :
    (d.andThen e).Within (n + n') (k + k') (cs ++ cs') where
  events := by
    rw [List.flatMap_append, ← h.events, ← h'.events]
    rfl
  entries := by
    rw [entries_andThen]
    exact Nat.add_le_add h.entries h'.entries
  consultations := by
    rw [consultations_andThen]
    exact Nat.add_le_add h.consultations h'.consultations
  handled := by
    intro c hc
    rcases List.mem_append.1 hc with hc | hc
    · exact h.handled c hc
    · exact h'.handled c hc

theorem within_nil : Within {} 0 0 [] :=
  ⟨rfl, Nat.le_refl 0, Nat.le_refl 0, by simp⟩

theorem within_crossing (c : Crossing) : Within { events := c.events } 0 0 [c] :=
  ⟨by simp, Nat.le_refl 0, Nat.le_refl 0, by simp⟩

theorem within_entry {c : Handler.Call} (h : c.isEntry = true) :
    Within { calls := [c] } 1 0 [] := by
  have hselection : c.isSelection = false := by
    cases c with
    | entered => rfl
    | selected | updated => cases h
  exact ⟨rfl, by simp [entries, h], by simp [consultations, hselection], by simp [h]⟩

theorem within_selection {c : Handler.Call} (h : c.isSelection = true) :
    Within { calls := [c] } 0 1 [] := by
  have hentry : c.isEntry = false := by
    cases c with
    | selected => rfl
    | entered | updated => cases h
  exact ⟨rfl, by simp [entries, hentry], by simp [consultations, h], by simp [h]⟩

theorem within_question (q : Question) : Within { questions := [q] } 0 1 [] :=
  ⟨rfl, Nat.le_refl 0, Nat.le_refl 1, by simp⟩

theorem Within.mono (h : d.Within n k cs) (hn : n ≤ n') (hk : k ≤ k') : d.Within n' k' cs :=
  ⟨h.events, Nat.le_trans h.entries hn, Nat.le_trans h.consultations hk, h.handled⟩

end Deeds

namespace Session

variable {σ τ : Type}

/-- What the supply was asked so far. -/
def questions (s : LoggedSession σ τ) : List Question :=
  s.supply.elim [] (·.log)

/-- What was done to a session is what the logs, the queue and the recording have more than
before. -/
structure Does (s s' : LoggedSession σ τ) (d : Deeds) : Prop where
  handler : s'.handler = s.handler
  id : s'.task.id = s.task.id
  listening : s'.listening = s.listening
  calls : s'.memory.log = s.memory.log ++ d.calls
  questions : s'.questions = s.questions ++ d.questions
  queue : s'.queue = s.queue.sendAll d.outbox
  events : s'.task.recording.events = s.task.recording.events ++ d.events

variable {s s' s'' : LoggedSession σ τ}

theorem Does.refl (s : LoggedSession σ τ) : Does s s {} :=
  ⟨rfl, rfl, rfl, (List.append_nil _).symm, (List.append_nil _).symm, rfl,
    (List.append_nil _).symm⟩

theorem Does.trans {d e : Deeds} (h : Does s s' d) (h' : Does s' s'' e) :
    Does s s'' (d.andThen e) where
  handler := h'.handler.trans h.handler
  id := h'.id.trans h.id
  listening := h'.listening.trans h.listening
  calls := by rw [h'.calls, h.calls, List.append_assoc]; rfl
  questions := by rw [h'.questions, h.questions, List.append_assoc]; rfl
  queue := by rw [h'.queue, h.queue, Deeds.outbox_andThen, SignalQueue.sendAll_append]
  events := by rw [h'.events, h.events, List.append_assoc]; rfl

/-- An operation on the task does no more than it records. -/
theorem Does.updateTask {d : Deeds} (h : Does s s' d) {f : Task → Task}
    (hid : (f s'.task).id = s'.task.id)
    (hevents : (f s'.task).recording.events = s'.task.recording.events) :
    Does s (s'.updateTask f) d :=
  ⟨h.handler, hid.trans h.id, h.listening, h.calls, h.questions, h.queue, hevents.trans h.events⟩

theorem Does.note {d : Deeds} (h : Does s s' d) (t : Trouble) : Does s (s'.note t) d :=
  ⟨h.handler, h.id, h.listening, h.calls, h.questions, h.queue, h.events⟩

theorem Does.complete {d : Deeds} (h : Does s s' d) (now : Instant) (phase : Phase) (exit : Exit) :
    Does s (s'.complete now phase exit) d :=
  ⟨h.handler, h.id, h.listening, h.calls, h.questions, h.queue, h.events⟩

theorem does_record (s : LoggedSession σ τ) (e : Event) : Does s (s.record e) { events := [e] } :=
  ⟨rfl, rfl, rfl, (List.append_nil _).symm, (List.append_nil _).symm, rfl, rfl⟩

theorem does_arrive (s : LoggedSession σ τ) (now : Instant) (state : String) (executed : Bool) :
    Does s (s.arrive now state executed) { events := [.state state executed now] } :=
  ⟨rfl, rfl, rfl, (List.append_nil _).symm, (List.append_nil _).symm, rfl, rfl⟩

theorem does_enterStart (s : LoggedSession σ τ) (now : Instant) (state : String) :
    Does s (s.enterStart now state) { events := [.state state true now] } :=
  ⟨rfl, rfl, rfl, (List.append_nil _).symm, (List.append_nil _).symm, rfl, rfl⟩

/-! ## Calls -/

theorem does_afterCall (s : LoggedSession σ τ) (state : String) (memory : σ) {d : Desk}
    {c : Handler.Call} (hc : c.outbox = d.outbox) :
    Does s (s.afterCall state ⟨memory, s.memory.log ++ [c]⟩ d) { calls := [c] } where
  handler := rfl
  id := rfl
  listening := rfl
  calls := rfl
  questions := (List.append_nil _).symm
  queue := by simp [afterCall, Deeds.outbox, hc]
  events := (List.append_nil _).symm

/-- Entering a state runs one handler, or none. -/
theorem enterLive_does {h : Handler σ} (hlogged : s.handler = h.logged) (state : String)
    (cause : Option String) :
    ∃ d : Deeds, d.Within 1 0 [] ∧ Does s (s.enterLive state cause).1 d := by
  -- in a simulation, or where no handler has the state
  have hnone : ∃ d : Deeds, d.Within 1 0 [] ∧ Does s s d :=
    ⟨{}, Deeds.within_nil.mono (Nat.zero_le 1) (Nat.le_refl 0), .refl s⟩
  unfold enterLive callState
  split
  · exact hnone
  · split
    · rw [hlogged, h.logged_enter]
      generalize h.enter s.memory.inner (s.visit state cause) (s.desk state) = entered
      obtain ⟨inner, left, answer⟩ := entered
      let c : Handler.Call := .entered (s.visit state cause) (s.desk state) left answer
      have hcalled := does_afterCall s state inner (d := left) (c := c) rfl
      refine ⟨_, Deeds.within_entry (c := c) rfl, ?_⟩
      cases answer <;> exact hcalled
    · split <;> exact hnone

/-- Asking for a value asks one selector, or the supply, or neither. -/
theorem askValue_does [Supply τ] {h : Handler σ} (hlogged : s.handler = h.logged)
    (state method : String) :
    ∃ d : Deeds, d.Within 0 1 [] ∧ Does s (s.askValue state method).1 d := by
  have hnone : ∃ d : Deeds, d.Within 0 1 [] ∧ Does s s d :=
    ⟨{}, Deeds.within_nil.mono (Nat.le_refl 0) (Nat.zero_le 1), .refl s⟩
  unfold askValue
  cases hsupply : s.supply with
  | some x =>
    have hasked : Does s { s with supply := some (Supply.next x state method).1 }
        { questions := [⟨state, method⟩] } := by
      refine ⟨rfl, rfl, rfl, (List.append_nil _).symm, ?_, rfl, (List.append_nil _).symm⟩
      unfold questions
      rw [hsupply]
      rfl
    refine ⟨_, Deeds.within_question ⟨state, method⟩, ?_⟩
    dsimp only
    generalize Supply.next x state method = given at *
    obtain ⟨x', answer⟩ := given
    cases answer <;> exact hasked
  | none =>
    dsimp only
    unfold callSelector
    split
    · rw [hlogged, h.logged_select]
      generalize h.select s.memory.inner method (s.visit state none) (s.desk state) = selected
      obtain ⟨inner, left, answer⟩ := selected
      let c : Handler.Call := .selected method (s.visit state none) (s.desk state) left answer
      have hcalled := does_afterCall s state inner (d := left) (c := c) rfl
      refine ⟨_, Deeds.within_selection (c := c) rfl, ?_⟩
      cases answer <;> exact hcalled
    · split <;> exact hnone

/-! ## Moves -/

theorem does_depart (s : LoggedSession σ τ) (now : Instant) (m : Move) :
    Does s (s.depart now m)
      { events := [.transition m.origin m.method m.value m.requested m.kind now] } := by
  unfold depart
  dsimp only
  split
  · exact does_record s _
  · exact (does_record s _).updateTask rfl rfl

theorem does_move (s : LoggedSession σ τ) (now : Instant) (m : Move) :
    Does s (s.move now m) { events := (m.crossing now).events } := by
  have hmoved := (s.does_depart now m).trans
    (does_arrive _ now m.transition.target m.transition.exec)
  unfold move setFailed
  dsimp only
  split
  · exact hmoved.updateTask rfl rfl
  · exact hmoved

theorem enterTarget_does {h : Handler σ} (hlogged : s.handler = h.logged) (now : Instant)
    (m : Move) :
    ∃ d : Deeds, d.Within 1 0 [m.crossing now] ∧ Does s (s.enterTarget now m).1 d := by
  have hmoved := s.does_move now m
  have hcrossing := Deeds.within_crossing (m.crossing now)
  unfold enterTarget
  split
  · obtain ⟨d, hentry, hentered⟩ := enterLive_does (hmoved.handler.trans hlogged)
      m.transition.target (m.reason.map Trouble.message)
    exact ⟨_, hcrossing.andThen hentry, hmoved.trans hentered⟩
  · exact ⟨_, hcrossing.mono (Nat.zero_le 1) (Nat.le_refl 0), hmoved⟩

/-- What was done comes to at most so many consultations and crossings, with a handler for each
crossing at most. -/
def Spends (consultations limit : Nat) (s s' : LoggedSession σ τ) : Prop :=
  ∃ (d : Deeds) (cs : List Crossing), d.Within cs.length consultations cs ∧
    Crossing.UpTo limit cs ∧ Does s s' d

theorem Spends.note {k n : Nat} (h : Spends k n s s') (t : Trouble) : Spends k n s (s'.note t) := by
  obtain ⟨d, cs, hwithin, hupTo, hdoes⟩ := h
  exact ⟨d, cs, hwithin, hupTo, hdoes.note t⟩

/-- Following a move comes to one crossing, and to what follows a problem. -/
theorem follow_spends {h : Handler σ} (hlogged : s.handler = h.logged) {now : Instant}
    {recover : LoggedSession σ τ → String → Trouble →
      Stepped (Logged σ Handler.Call) (Logged τ Question)}
    {m : Move} {limit : Nat} (hlast : limit = 0 → m.transition.target = Names.failure)
    (hrecover : ∀ (s' : LoggedSession σ τ) (trouble : Trouble),
      m.transition.target ≠ Names.failure → s'.handler = h.logged →
        Spends 0 limit s' (recover s' m.transition.target trouble).1) :
    Spends 0 (limit + 1) s (s.follow now recover m).1 := by
  obtain ⟨d, hwithin, hdoes⟩ := enterTarget_does hlogged now m
  -- the target is all that the move comes to, unless its handler fails
  have hupTo : Crossing.UpTo (limit + 1) [m.crossing now] := by
    cases limit with
    | zero => exact Crossing.upTo_one (hlast rfl)
    | succ limit => exact Crossing.upTo_of_lt (by simp)
  have hreached : ∀ s', Does s s' d → Spends 0 (limit + 1) s s' := fun s' hs' =>
    ⟨d, [m.crossing now], hwithin, hupTo, hs'⟩
  rw [follow_eq]
  generalize s.enterTarget now m = entered at hdoes ⊢
  obtain ⟨s', _ | trouble⟩ := entered
  · simp only [settle]
    split
    · exact hreached _ (hdoes.complete now _ _)
    · exact hreached _ hdoes
  · simp only [settle]
    split
    · exact hreached _ (hdoes.note trouble)
    · -- the handler failed, and what follows makes its crossings after this one
      next hne =>
      obtain ⟨e, cs, hrest, hfew, hrecovered⟩ :=
        hrecover (s'.note trouble) trouble hne ((hdoes.note trouble).handler.trans hlogged)
      refine ⟨_, m.crossing now :: cs, ?_, ?_, (hdoes.note trouble).trans hrecovered⟩
      · exact (hwithin.andThen hrest).mono (Nat.le_of_eq (Nat.add_comm _ _)) (Nat.le_refl 0)
      · cases limit with
        | zero => exact absurd (hlast rfl) hne
        | succ limit => exact hfew.cons _

theorem goToFailure_spends {h : Handler σ} (hlogged : s.handler = h.logged) (now : Instant)
    (state : String) (cause : Trouble) : Spends 0 1 s (s.goToFailure now state cause).1 :=
  follow_spends hlogged (fun _ => rfl) fun _ _ hne => absurd rfl hne

theorem goToError_spends {h : Handler σ} (hlogged : s.handler = h.logged) (now : Instant)
    (state : String) (cause : Trouble) : Spends 0 2 s (s.goToError now state cause).1 :=
  follow_spends hlogged nofun fun _ _ _ hlogged => goToFailure_spends hlogged now _ _

/-! ## Selecting a value -/

theorem Spends.refl (k n : Nat) (s : LoggedSession σ τ) : Spends k n s s :=
  ⟨{}, [], Deeds.within_nil.mono (Nat.le_refl 0) (Nat.zero_le k), ⟨Nat.zero_le n, by simp⟩,
    .refl s⟩

theorem Spends.mono {k n k' n' : Nat} (h : Spends k n s s') (hk : k ≤ k') (hn : n ≤ n') :
    Spends k' n' s s' := by
  obtain ⟨d, cs, hwithin, hupTo, hdoes⟩ := h
  exact ⟨d, cs, hwithin.mono (Nat.le_refl _) hk, hupTo.mono hn, hdoes⟩

/-- What is asked before the first move adds to the consultations. -/
theorem Does.spends {d : Deeds} {k n : Nat} (h : Does s s' d) (hwithin : d.Within 0 1 [])
    (hspends : Spends k n s' s'') : Spends (1 + k) n s s'' := by
  obtain ⟨e, cs, hrest, hupTo, hdoes⟩ := hspends
  refine ⟨_, cs, ?_, hupTo, h.trans hdoes⟩
  exact (hwithin.andThen hrest).mono (Nat.le_of_eq (Nat.zero_add _)) (Nat.le_refl _)

theorem Does.of_note {d : Deeds} {t : Trouble} (h : Does (s.note t) s' d) : Does s s' d :=
  ⟨h.handler, h.id, h.listening, h.calls, h.questions, h.queue, h.events⟩

theorem Spends.of_note {k n : Nat} {t : Trouble} (h : Spends k n (s.note t) s') :
    Spends k n s s' := by
  obtain ⟨d, cs, hwithin, hupTo, hdoes⟩ := h
  exact ⟨d, cs, hwithin, hupTo, hdoes.of_note⟩

theorem takeError_spends {h : Handler σ} (hlogged : s.handler = h.logged) (now : Instant)
    (b : Block) (state : String) (requested : Option String) (cause : Trouble) :
    Spends 0 3 s (s.takeError now b state requested cause).1 :=
  follow_spends hlogged nofun fun _ _ _ hlogged => goToError_spends hlogged now _ _

theorem takeValue_spends {h : Handler σ} (hlogged : s.handler = h.logged) (watch : Watch)
    (now : Instant) (b : Block) (state value : String) :
    Spends 0 3 s (s.takeValue watch now b state value).1 := by
  have htakes := s.takeValue_takes watch now b state value
  generalize s.takeValue watch now b state value = o at *
  cases htakes with
  | error => exact takeError_spends hlogged now _ _ _ _
  | taken => exact follow_spends hlogged nofun fun _ _ _ hlogged => goToError_spends hlogged now _ _
  | held trouble => exact (Spends.refl 0 3 s).note trouble
  | refused trouble =>
    -- noting the problem is no deed
    exact (takeError_spends (s := s.note trouble) hlogged now _ _ _ _).of_note

theorem goOnWithoutBlock_spends {h : Handler σ} (hlogged : s.handler = h.logged) (now : Instant)
    (state : String) (e : TableError) : Spends 0 1 s (s.goOnWithoutBlock now state e).1 := by
  have hended : ∀ s', Does s s' {} → Spends 0 1 s s' := fun s' h =>
    ⟨{}, [], Deeds.within_nil, Crossing.upTo_of_lt Nat.one_pos, h⟩
  unfold goOnWithoutBlock
  split
  · exact hended _ ((Does.refl s).complete now _ _)
  · split
    · exact hended _ ((Does.refl s).complete now _ _)
    · split
      · exact hended _ (((Does.refl s).updateTask rfl rfl).complete now _ _)
      · exact (goToFailure_spends (s := s.note (.dangling e)) hlogged now _ _).of_note

/-! ## The bounds of a step -/

/-- The bounds of a step: the state in which the task starts and at most three crossings, of which a
third leads to `failure`; at most four handlers of states; at most one consultation. -/
structure Deeds.Bounded (d : Deeds) (opening : List Event) (cs : List Crossing) : Prop where
  events : d.events = opening ++ cs.flatMap Crossing.events
  opens : opening = [] ∨ ∃ state now, opening = [.state state true now]
  crossings : Crossing.UpTo 3 cs
  entries : d.entries ≤ 4
  consultations : d.consultations ≤ 1
  handled : ∀ c ∈ d.calls, c.isEntry = true ∨ c.isSelection = true

theorem Spends.bounded (h : Spends 1 3 s s') :
    ∃ d opening cs, Deeds.Bounded d opening cs ∧ Does s s' d := by
  obtain ⟨d, cs, hwithin, hupTo, hdoes⟩ := h
  have hentries : d.entries ≤ 4 :=
    Nat.le_trans hwithin.entries (Nat.le_trans hupTo.1 (Nat.le_succ 3))
  exact ⟨d, [], cs, ⟨hwithin.events, .inl rfl, hupTo, hentries, hwithin.consultations,
    hwithin.handled⟩, hdoes⟩

/-- The first state, and a handler in it, come before all else that a starting step comes to. -/
theorem Spends.bounded_of_first {d : Deeds} {now : Instant} {state : String}
    (hfirst : Does s s' (({ events := [.state state true now] } : Deeds).andThen d))
    (hentry : d.Within 1 0 []) (h : Spends 1 3 s' s'') :
    ∃ d opening cs, Deeds.Bounded d opening cs ∧ Does s s'' d := by
  obtain ⟨e, cs, hrest, hupTo, hdoes⟩ := h
  -- three crossings run three handlers at most, and the first state one more
  have hall := hentry.andThen hrest
  have hfew := hupTo.1
  refine ⟨_, [.state state true now], cs, ⟨?_, .inr ⟨state, now, rfl⟩, hupTo, ?_, ?_, ?_⟩,
    hfirst.trans hdoes⟩
  · simp [Deeds.andThen, hentry.events, hrest.events]
  · have hentries := hall.entries
    simp only [Deeds.entries_andThen] at hentries ⊢
    simp only [Deeds.entries, List.countP_nil] at hentries ⊢
    omega
  · have hconsultations := hall.consultations
    simp only [Deeds.consultations_andThen] at hconsultations ⊢
    simp only [Deeds.consultations, List.countP_nil, List.length_nil] at hconsultations ⊢
    omega
  · exact hall.handled

/-- Terminating a task comes to one crossing at most. -/
theorem terminate_does {h : Handler σ} (hlogged : s.handler = h.logged) (now : Instant)
    (reason : String) :
    ∃ d opening cs, Deeds.Bounded d opening cs ∧ Does s (s.terminate now reason).1 d := by
  suffices hended : ∃ (d : Deeds) (cs : List Crossing), d.Within 1 0 cs ∧ cs.length ≤ 1 ∧
      Does s (s.terminate now reason).1 d by
    obtain ⟨d, cs, hwithin, hfew, hdoes⟩ := hended
    refine ⟨d, [], cs, ⟨hwithin.events, .inl rfl, ?_, ?_, ?_, hwithin.handled⟩, hdoes⟩
    · exact Crossing.upTo_of_lt (by omega)
    · exact Nat.le_trans hwithin.entries (by omega)
    · exact Nat.le_trans hwithin.consultations (Nat.zero_le 1)
  unfold terminate
  dsimp only
  split
  · -- a task that has not started records nothing
    obtain ⟨d, hentry, hentered⟩ := enterLive_does hlogged Names.terminate (some reason)
    exact ⟨d, [], hentry, Nat.zero_le 1, hentered.complete now _ _⟩
  · split
    · -- it crosses over to `terminate`, if the table has a block for that
      let c : Crossing :=
        { origin := s.task.current.getD ""
          method := s.methodOf (s.task.current.getD "")
          value := Names.terminateRequested
          requested := none
          kind := .signal
          target := Names.terminate
          executed := true
          time := now }
      have hcrossed := (s.does_record (.transition c.origin c.method c.value c.requested c.kind
        c.time)).trans (does_arrive _ now Names.terminate true)
      obtain ⟨d, hentry, hentered⟩ := enterLive_does (hcrossed.handler.trans hlogged)
        Names.terminate (some reason)
      exact ⟨_, [c], (Deeds.within_crossing c).andThen hentry, Nat.le_refl 1,
        ((hcrossed.trans hentered).updateTask rfl rfl).complete now _ _⟩
    · exact ⟨{}, [], Deeds.within_nil.mono (Nat.zero_le 1) (Nat.le_refl 0), Nat.zero_le 1,
        ((Does.refl s).updateTask rfl rfl).complete now _ _⟩

section Asking

variable [Supply τ]

theorem selectFrom_spends {h : Handler σ} (hlogged : s.handler = h.logged) (watch : Watch)
    (now : Instant) (b : Block) (state : String) :
    Spends 1 3 s (s.selectFrom watch now b state).1 := by
  obtain ⟨d, hwithin, hdoes⟩ := askValue_does hlogged state b.method
  unfold selectFrom
  split
  · exact .refl 1 3 s
  · generalize s.askValue state b.method = asked at hdoes ⊢
    match asked with
    | (s', .error e) => exact hdoes.spends hwithin (.refl 0 3 s')
    | (s', .ok (.error trouble)) =>
      have herror := takeError_spends (s := s'.note trouble) (hdoes.handler.trans hlogged) now b
        state none trouble
      exact hdoes.spends hwithin herror.of_note
    | (s', .ok (.ok value)) =>
      exact hdoes.spends hwithin
        (takeValue_spends (hdoes.handler.trans hlogged) watch now b state value)

theorem goOn_spends {h : Handler σ} (hlogged : s.handler = h.logged) (watch : Watch)
    (now : Instant) (state : String) : Spends 1 3 s (s.goOn watch now state).1 := by
  unfold goOn
  split
  · exact selectFrom_spends hlogged watch now _ _
  · exact (goOnWithoutBlock_spends hlogged now _ _).mono (Nat.zero_le 1) (by omega)

/-! ## Whole steps -/

theorem start_does {h : Handler σ} (hlogged : s.handler = h.logged) (watch : Watch)
    (now : Instant) :
    ∃ d opening cs, Deeds.Bounded d opening cs ∧ Does s (s.start watch now).1 d := by
  cases hstart : s.table.startState with
  | error e =>
    unfold start
    rw [hstart]
    exact (Spends.refl 1 3 s).bounded
  | ok state =>
    have hstarted := s.does_enterStart now state
    obtain ⟨d, hentry, hentered⟩ := enterLive_does (hstarted.handler.trans hlogged) state none
    have hfirst := hstarted.trans hentered
    rw [start_eq watch now hstart]
    generalize (s.enterStart now state).enterLive state none = entered at hfirst ⊢
    obtain ⟨s', _ | trouble⟩ := entered
    · exact (goOn_spends (hfirst.handler.trans hlogged) watch now state).bounded_of_first hfirst
        hentry
    · -- the handler of the first state failed, so no value is asked for
      have hnoted : Does s (s'.note trouble) _ := hfirst.note trouble
      simp only [settleStart]
      split
      · exact (Spends.refl 1 3 _).bounded_of_first hnoted hentry
      · have herror := goToError_spends (hnoted.handler.trans hlogged) now state trouble
        exact (herror.mono (Nat.zero_le 1) (Nat.le_succ 2)).bounded_of_first hnoted hentry

/-- The session whose signal is consumed, if a step is going to take one. -/
def received (s : Session σ τ) : Session σ τ :=
  if s.isComplete then s
  else
    match s.signal? with
    | some signal => { s with queue := s.queue.consume s.task.id signal.id }
    | none => s

omit [Supply τ] in
/-- Receiving a signal changes the queue only. -/
theorem received_eq (s : Session σ τ) : s.received = { s with queue := s.received.queue } := by
  unfold received
  split
  · rfl
  · split <;> rfl

/-- Apart from the signal that it takes, a step does what its bounds allow, and nothing else. -/
theorem stepSeeing_does {h : Handler σ} (hlogged : s.handler = h.logged) (watch : Watch)
    (now : Instant) :
    ∃ d opening cs, Deeds.Bounded d opening cs ∧ Does s.received (s.stepSeeing watch now).1 d := by
  unfold stepSeeing received
  split
  · exact (Spends.refl 1 3 s).bounded
  · cases s.signal? with
    | some signal =>
      refine terminate_does (h := h) ?_ now signal.text
      exact hlogged
    | none =>
      dsimp only
      split
      · exact (Spends.refl 1 3 s).bounded
      · split
        · exact start_does hlogged watch now
        · exact start_does hlogged watch now
        · exact (goOn_spends hlogged watch now _).bounded

end Asking

end Session
end TaskTable
