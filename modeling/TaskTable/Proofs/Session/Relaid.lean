import TaskTable.Proofs.Session.Course
import TaskTable.Proofs.Session.Limits
import TaskTable.Proofs.Session.Past
import TaskTable.Proofs.Table.Renumber

/-!
# Sessions under a renumbered table

A step looks at the number of a line in one place only: where it asks how often a transition with a
limit was taken. So a session whose table has other line numbers goes the same way, as long as it
has the same counts for these transitions under their new numbers. `Relaid` says this of two
sessions, and is kept by every operation, every step and every course.
-/

namespace TaskTable

/-! ## Numbers -/

namespace Table

/-- The transitions that a table declares. -/
def declared (t : Table) : List Transition :=
  t.blocks.flatMap (·.transitions)

/-- A transition that a session under the table can take: one that every state has, or a declared
one. -/
def Offers (t : Table) (tr : Transition) : Prop :=
  tr = .toFailure ∨ tr = .toTerminate ∨ tr ∈ t.declared

/-- New numbers tell the declared transitions apart where the old ones do, and none of these has the
number of the routes that are not declared. -/
structure Separates (t : Table) (f : Nat → Nat) : Prop where
  zero : f 0 = 0
  positive : ∀ tr ∈ t.declared, f tr.line ≠ 0
  injective : ∀ tr ∈ t.declared, ∀ tr' ∈ t.declared, f tr.line = f tr'.line → tr.line = tr'.line

variable {t : Table} {f : Nat → Nat} {b : Block} {tr : Transition}

/-- A block that is found is one of the table's. -/
theorem mem_of_block? {state : String} (h : t.block? state = some b) : b ∈ t.blocks := by
  unfold block? at h
  split at h
  · exact List.mem_of_getElem? h
  · split at h
    · cases h
    · exact List.mem_of_find?_eq_some h

theorem mem_declared (hb : b ∈ t.blocks) (htr : tr ∈ b.transitions) : tr ∈ t.declared :=
  List.mem_flatMap.2 ⟨b, hb, htr⟩

theorem offers_of_next? (hb : b ∈ t.blocks) {value : String} (h : b.next? value = some tr) :
    t.Offers tr := by
  rcases Block.next?_eq_some h with h | ⟨hmem, -⟩
  · exact .inr (.inl h)
  · exact .inr (.inr (mem_declared hb hmem))

/-- The routes that every state has keep their number. -/
theorem Separates.renumber_implicit (h : t.Separates f) :
    Transition.toFailure.renumber f = .toFailure ∧
      Transition.toTerminate.renumber f = .toTerminate :=
  ⟨Transition.renumber_eq_self h.zero, Transition.renumber_eq_self h.zero⟩

/-- A transition is declared under its new number if it is under its old one. -/
theorem Separates.isImplicit_renumber (h : t.Separates f) (htr : t.Offers tr) :
    (tr.renumber f).isImplicit = tr.isImplicit := by
  rcases htr with rfl | rfl | hmem
  · rw [h.renumber_implicit.1]
  · rw [h.renumber_implicit.2]
  · have hnew : f tr.line ≠ 0 := h.positive tr hmem
    have hold : tr.line ≠ 0 := by
      intro hzero
      rw [hzero, h.zero] at hnew
      exact hnew rfl
    simp [Transition.isImplicit, Transition.renumber, hnew, hold]

end Table

/-- A value takes the same transition of a block on other lines. -/
theorem Block.next?_renumber {f : Nat → Nat} (hzero : f 0 = 0) (b : Block) (value : String) :
    (b.renumber f).next? value = (b.next? value).map (Transition.renumber f) := by
  have hterminate : Transition.toTerminate.renumber f = .toTerminate :=
    Transition.renumber_eq_self hzero
  unfold next?
  rw [transition?_renumber, transition?_renumber]
  cases b.transition? value with
  | some tr => rfl
  | none =>
    dsimp only [Option.map_none]
    split
    · rw [Option.map_some, hterminate]
    · split <;> rfl

namespace Session

variable {σ τ : Type}

/-- A move along a transition on another line. -/
def Move.renumber (f : Nat → Nat) (m : Move) : Move :=
  { m with transition := m.transition.renumber f }

/-- The number of a line is no part of where a move leads and why. -/
theorem Move.renumber_parts (f : Nat → Nat) (m : Move) :
    (m.renumber f).transition.target = m.transition.target ∧
      (m.renumber f).transition.exec = m.transition.exec ∧ (m.renumber f).reason = m.reason :=
  ⟨rfl, rfl, rfl⟩

/-- Asking for a value leaves the table as it is. -/
theorem table_askValue [Supply τ] (s : Session σ τ) (state method : String) :
    (s.askValue state method).1.table = s.table := by
  have hasks := s.askValue_asks state method
  generalize s.askValue state method = asked at *
  cases hasks <;> rfl

/-- The session under another table, with other counts. -/
def relay (s : Session σ τ) (table : Table) (counts : SortedMap Nat Nat) (hash : String) :
    Session σ τ :=
  { s with table, task := { s.task with counts, tableHash := hash } }

/-- A session and one that differs from it in the numbers of the table's lines and in the counts,
with the same counts for all transitions that have a limit. -/
structure Relaid (f : Nat → Nat) (s s' : Session σ τ) : Prop where
  separates : s.table.Separates f
  table : ∃ hash, s'.table = { s.table.renumber f with sourceHash := hash }
  counts : ∀ tr ∈ s.table.declared, tr.max ≠ 0 → s'.task.count (f tr.line) = s.task.count tr.line
  same : s' = s.relay s'.table s'.task.counts s'.task.tableHash

/-- Two operations that leave sessions as they are related and give the same answer. -/
def RelaidIn (f : Nat → Nat) {α : Type} (o o' : Session σ τ × α) : Prop :=
  Relaid f o.1 o'.1 ∧ o'.2 = o.2

variable {f : Nat → Nat} {s s' : Session σ τ}

namespace Relaid

/-! ## What the two sessions have in common -/

/-- What has not looked at the table or the counts comes to the same. -/
theorem keep (h : Relaid f s s') {x x' : Session σ τ} (htable : x.table = s.table)
    (hcounts : x.task.counts = s.task.counts)
    (hsame : x' = x.relay s'.table s'.task.counts s'.task.tableHash) : Relaid f x x' := by
  obtain ⟨hseparates, htable', hcounts', -⟩ := h
  subst hsame
  refine ⟨htable ▸ hseparates, htable ▸ htable', ?_, rfl⟩
  unfold Task.count at hcounts' ⊢
  rw [htable, hcounts]
  exact hcounts'

/-- What is no matter of the table or the counts is the same in both. -/
theorem agree {α : Type} (h : Relaid f s s') (g : Session σ τ → α)
    (hg : ∀ table counts hash, g (s.relay table counts hash) = g s) : g s' = g s :=
  (congrArg g h.same).trans (hg _ _ _)

theorem block? (h : Relaid f s s') (state : String) :
    s'.table.block? state = (s.table.block? state).map (Block.renumber f) := by
  obtain ⟨hash, htable⟩ := h.table
  rw [htable, ← Table.block?_renumber]
  rfl

theorem hasBlock (h : Relaid f s s') (state : String) :
    s'.table.hasBlock state = s.table.hasBlock state := by
  unfold Table.hasBlock
  rw [h.block?, Option.isSome_map]

theorem startState (h : Relaid f s s') : s'.table.startState = s.table.startState := by
  obtain ⟨hash, htable⟩ := h.table
  rw [htable]
  unfold Table.startState Table.renumber
  cases s.table.blocks <;> rfl

theorem timerOf (h : Relaid f s s') (state : String) : s'.timerOf state = s.timerOf state := by
  unfold Session.timerOf
  rw [h.block?]
  cases s.table.block? state <;> rfl

theorem methodOf (h : Relaid f s s') (state : String) : s'.methodOf state = s.methodOf state := by
  unfold Session.methodOf
  rw [h.block?]
  cases s.table.block? state <;> rfl

theorem completed (h : Relaid f s s') (wait : Nat) : s'.completed wait = s.completed wait :=
  h.agree (·.completed wait) fun _ _ _ => rfl

theorem standing (h : Relaid f s s') :
    s'.task.phase = s.task.phase ∧ s'.task.current = s.task.current :=
  ⟨h.agree (·.task.phase) fun _ _ _ => rfl, h.agree (·.task.current) fun _ _ _ => rfl⟩

theorem isExhausted (h : Relaid f s s') {tr : Transition} (htr : s.table.Offers tr) :
    s'.isExhausted (tr.renumber f) = s.isExhausted tr := by
  have hlimit : (tr.renumber f).max = tr.max := rfl
  unfold Session.isExhausted
  rw [hlimit]
  by_cases hmax : tr.max = 0
  · simp [hmax]
  · -- the routes that every state has are without limit
    have hmem : tr ∈ s.table.declared := by
      rcases htr with rfl | rfl | hmem
      · exact absurd rfl hmax
      · exact absurd rfl hmax
      · exact hmem
    have hcount := h.counts tr hmem hmax
    rw [show (tr.renumber f).line = f tr.line from rfl, hcount]

/-! ## Changing the task -/

theorem note (h : Relaid f s s') (t : Trouble) : Relaid f (s.note t) (s'.note t) :=
  h.keep rfl rfl (congrArg (·.note t) h.same)

theorem record (h : Relaid f s s') (e : Event) : Relaid f (s.record e) (s'.record e) :=
  h.keep rfl rfl (congrArg (·.record e) h.same)

theorem setExit (h : Relaid f s s') (exit : Option Exit) :
    Relaid f (s.updateTask fun t => { t with exit }) (s'.updateTask fun t => { t with exit }) :=
  h.keep rfl rfl (congrArg (·.updateTask fun t => { t with exit }) h.same)

theorem setFailed (h : Relaid f s s') (reason : Option Trouble) :
    Relaid f (s.setFailed reason) (s'.setFailed reason) :=
  h.keep rfl rfl (congrArg (·.setFailed reason) h.same)

theorem arrive (h : Relaid f s s') (now : Instant) (state : String) (executed : Bool) :
    Relaid f (s.arrive now state executed) (s'.arrive now state executed) := by
  refine h.keep rfl rfl ?_
  have htimer : (s.relay s'.table s'.task.counts s'.task.tableHash).timerOf state =
      s.timerOf state := h.timerOf state
  rw [h.same]
  unfold Session.arrive
  rw [htimer]
  rfl

theorem enterStart (h : Relaid f s s') (now : Instant) (state : String) :
    Relaid f (s.enterStart now state) (s'.enterStart now state) := by
  have hstarted : Relaid f
      (s.updateTask fun t =>
        { t with phase := .running, recording := t.recording.markStarted now })
      (s'.updateTask fun t =>
        { t with phase := .running, recording := t.recording.markStarted now }) :=
    h.keep rfl rfl (congrArg (·.updateTask fun t =>
      { t with phase := .running, recording := t.recording.markStarted now }) h.same)
  exact hstarted.arrive now state true

theorem complete (h : Relaid f s s') (now : Instant) (phase : Phase) (exit : Exit) :
    Relaid f (s.complete now phase exit) (s'.complete now phase exit) :=
  h.keep rfl rfl (congrArg (·.complete now phase exit) h.same)

/-- A transition is counted under its own number in either session. -/
theorem increment (h : Relaid f s s') {tr : Transition} (htr : tr ∈ s.table.declared) :
    Relaid f (s.updateTask fun t => t.increment tr.line)
      (s'.updateTask fun t => t.increment (f tr.line)) := by
  refine ⟨h.separates, h.table, fun tr' htr' hmax => ?_, ?_⟩
  · have hcount := h.counts tr' htr' hmax
    have hnumbers : f tr'.line = f tr.line ↔ tr'.line = tr.line :=
      ⟨h.separates.injective tr' htr' tr htr, congrArg f⟩
    simp only [Session.updateTask, Task.increment, Task.count, SortedMap.getD,
      SortedMap.get?_insert] at hcount ⊢
    by_cases hline : tr'.line = tr.line
    · rw [if_pos (hnumbers.2 hline), if_pos hline, Option.getD_some, Option.getD_some,
        ← hline, hcount]
    · rw [if_neg (mt hnumbers.1 hline), if_neg hline, hcount]
  · rw [h.same]
    rfl

theorem depart (h : Relaid f s s') (now : Instant) {m : Move}
    (hm : s.table.Offers m.transition) :
    Relaid f (s.depart now m) (s'.depart now (m.renumber f)) := by
  have hrecord := h.record (.transition m.origin m.method m.value m.requested m.kind now)
  have himplicit : (m.renumber f).transition.isImplicit = m.transition.isImplicit :=
    h.separates.isImplicit_renumber hm
  unfold Session.depart
  dsimp only
  rw [himplicit]
  split
  · exact hrecord
  · next hdeclared =>
    rcases hm with hm | hm | hm
    · exact absurd (Transition.isImplicit_of_eq (.inl hm)) hdeclared
    · exact absurd (Transition.isImplicit_of_eq (.inr hm)) hdeclared
    · exact hrecord.increment hm

/-- A count is forgotten under its own number in either session. -/
theorem erase (h : Relaid f s s') {tr : Transition} (htr : tr ∈ s.table.declared) :
    Relaid f (s.updateTask fun t => { t with counts := t.counts.erase tr.line })
      (s'.updateTask fun t => { t with counts := t.counts.erase (f tr.line) }) := by
  refine ⟨h.separates, h.table, fun tr' htr' hmax => ?_, ?_⟩
  · have hcount := h.counts tr' htr' hmax
    have hnumbers : f tr'.line = f tr.line ↔ tr'.line = tr.line :=
      ⟨h.separates.injective tr' htr' tr htr, congrArg f⟩
    simp only [Session.updateTask, Task.count, SortedMap.getD, SortedMap.get?_erase] at hcount ⊢
    by_cases hline : tr'.line = tr.line
    · rw [if_pos (hnumbers.2 hline), if_pos hline]
    · rw [if_neg (mt hnumbers.1 hline), if_neg hline, hcount]
  · rw [h.same]
    rfl

/-! ## Calls -/

theorem afterCall (h : Relaid f s s') (state : String) (m : σ) (d : Desk) :
    Relaid f (s.afterCall state m d) (s'.afterCall state m d) :=
  h.keep rfl rfl (congrArg (·.afterCall state m d) h.same)

/-- Neither table nor counts are on a handler's desk or part of what it is told. -/
theorem told (h : Relaid f s s') (state : String) (cause : Option String) :
    s'.handler = s.handler ∧ s'.memory = s.memory ∧ s'.visit state cause = s.visit state cause ∧
      s'.desk state = s.desk state :=
  ⟨h.agree Session.handler fun _ _ _ => rfl, h.agree Session.memory fun _ _ _ => rfl,
    h.agree (·.visit state cause) fun _ _ _ => rfl, h.agree (·.desk state) fun _ _ _ => rfl⟩

theorem callState (h : Relaid f s s') (state : String) (cause : Option String) :
    RelaidIn f (s.callState state cause) (s'.callState state cause) := by
  obtain ⟨hhandler, hmemory, hvisit, hdesk⟩ := h.told state cause
  unfold Session.callState
  rw [hhandler, hmemory, hvisit, hdesk]
  split
  · generalize s.handler.enter s.memory (s.visit state cause) (s.desk state) = left
    obtain ⟨m, d, answer⟩ := left
    cases answer with
    | ok => exact ⟨h.afterCall state m d, rfl⟩
    | error message => exact ⟨h.afterCall state m d, rfl⟩
  · split <;> exact ⟨h, rfl⟩

theorem supply_eq (h : Relaid f s s') : s'.supply = s.supply :=
  h.agree Session.supply fun _ _ _ => rfl

theorem enterLive (h : Relaid f s s') (state : String) (cause : Option String) :
    RelaidIn f (s.enterLive state cause) (s'.enterLive state cause) := by
  unfold Session.enterLive isSimulating
  rw [h.supply_eq]
  split
  · exact ⟨h, rfl⟩
  · exact h.callState state cause

theorem callSelector (h : Relaid f s s') (state method : String) :
    RelaidIn f (s.callSelector state method) (s'.callSelector state method) := by
  obtain ⟨hhandler, hmemory, hvisit, hdesk⟩ := h.told state none
  unfold Session.callSelector
  rw [hhandler, hmemory, hvisit, hdesk]
  split
  · generalize s.handler.select s.memory method (s.visit state none) (s.desk state) = left
    obtain ⟨m, d, answer⟩ := left
    cases answer with
    | ok value => exact ⟨h.afterCall state m d, rfl⟩
    | error message => exact ⟨h.afterCall state m d, rfl⟩
  · split <;> exact ⟨h, rfl⟩

theorem withSupply (h : Relaid f s s') (supply : Option τ) :
    Relaid f { s with supply } { s' with supply } :=
  h.keep rfl rfl (congrArg (fun s : Session σ τ => { s with supply }) h.same)

variable [Supply τ]

theorem askValue (h : Relaid f s s') (state method : String) :
    RelaidIn f (s.askValue state method) (s'.askValue state method) := by
  have hselector := h.callSelector state method
  unfold Session.askValue
  rw [h.supply_eq]
  cases s.supply with
  | none => exact ⟨hselector.1, congrArg Except.ok hselector.2⟩
  | some x =>
    dsimp only
    generalize Supply.next x state method = given
    obtain ⟨x, answer⟩ := given
    cases answer with
    | ok value => exact ⟨h.withSupply _, rfl⟩
    | error e => exact ⟨h.withSupply _, rfl⟩

omit [Supply τ]

/-! ## Moves -/

theorem move (h : Relaid f s s') (now : Instant) {m : Move} (hm : s.table.Offers m.transition) :
    Relaid f (s.move now m) (s'.move now (m.renumber f)) := by
  have harrive := (h.depart now hm).arrive now m.transition.target m.transition.exec
  obtain ⟨htarget, hexec, hreason⟩ := m.renumber_parts f
  unfold Session.move
  dsimp only
  rw [htarget, hexec, hreason]
  split
  · exact harrive.setFailed m.reason
  · exact harrive

theorem enterTarget (h : Relaid f s s') (now : Instant) {m : Move}
    (hm : s.table.Offers m.transition) :
    RelaidIn f (s.enterTarget now m) (s'.enterTarget now (m.renumber f)) := by
  obtain ⟨htarget, hexec, hreason⟩ := m.renumber_parts f
  unfold Session.enterTarget
  rw [htarget, hexec, hreason]
  split
  · exact (h.move now hm).enterLive _ _
  · exact ⟨h.move now hm, rfl⟩

/-- What follows a problem, if it keeps sessions as they are related. -/
abbrev Recovers (f : Nat → Nat) (recover : Session σ τ → String → Trouble → Stepped σ τ) : Prop :=
  ∀ {s s'}, Relaid f s s' → ∀ state trouble,
    RelaidIn f (recover s state trouble) (recover s' state trouble)

theorem follow {recover : Session σ τ → String → Trouble → Stepped σ τ} (h : Relaid f s s')
    (now : Instant) {m : Move} (hm : s.table.Offers m.transition) (hrecover : Recovers f recover) :
    RelaidIn f (s.follow now recover m) (s'.follow now recover (m.renumber f)) := by
  obtain ⟨hentered, htrouble⟩ := h.enterTarget now hm
  rw [follow_eq, follow_eq, htrouble]
  generalize (s.enterTarget now m).1 = entered at *
  generalize (s'.enterTarget now _).1 = entered' at *
  show RelaidIn f (entered.settle now recover m _) (entered'.settle now recover m _)
  cases (s.enterTarget now m).2 with
  | none =>
    simp only [settle]
    split
    · have hcomplete := hentered.complete now .finished ⟨.succeeded, none⟩
      exact ⟨hcomplete, hcomplete.completed _⟩
    · exact ⟨hentered, rfl⟩
  | some trouble =>
    simp only [settle]
    split
    · exact ⟨hentered.note trouble, rfl⟩
    · exact hrecover (hentered.note trouble) _ _

theorem errorRoute (h : Relaid f s s') {b : Block} (hb : b ∈ s.table.blocks) :
    s.table.Offers (s.errorRoute b) ∧
      s'.errorRoute (b.renumber f) = (s.errorRoute b).renumber f := by
  unfold Session.errorRoute
  rw [Block.next?_renumber h.separates.zero]
  cases hnext : b.next? Names.error with
  | none => exact ⟨.inl rfl, h.separates.renumber_implicit.1.symm⟩
  | some tr =>
    have htr : s.table.Offers tr := Table.offers_of_next? hb hnext
    simp only [Option.map_some, h.isExhausted htr]
    split
    · exact ⟨.inl rfl, h.separates.renumber_implicit.1.symm⟩
    · exact ⟨htr, rfl⟩

theorem goToFailure (h : Relaid f s s') (now : Instant) (state : String) (cause : Trouble) :
    RelaidIn f (s.goToFailure now state cause) (s'.goToFailure now state cause) := by
  have hmove : s'.errorMove state .toFailure cause =
      (s.errorMove state .toFailure cause).renumber f := by
    unfold errorMove Move.renumber
    rw [h.methodOf, h.separates.renumber_implicit.1]
  unfold Session.goToFailure
  rw [hmove]
  exact h.follow now (.inl rfl) fun h _ _ => ⟨h, rfl⟩

theorem goToError (h : Relaid f s s') (now : Instant) (state : String) (cause : Trouble) :
    RelaidIn f (s.goToError now state cause) (s'.goToError now state cause) := by
  have hroute : s.table.Offers ((s.table.block? state).elim .toFailure s.errorRoute) ∧
      (s'.table.block? state).elim Transition.toFailure s'.errorRoute =
        ((s.table.block? state).elim .toFailure s.errorRoute).renumber f := by
    rw [h.block?]
    cases hb : s.table.block? state with
    | none => exact ⟨.inl rfl, h.separates.renumber_implicit.1.symm⟩
    | some b => exact h.errorRoute (Table.mem_of_block? hb)
  unfold Session.goToError
  dsimp only
  rw [hroute.2]
  generalize (s.table.block? state).elim .toFailure s.errorRoute = route at *
  have hmove : s'.errorMove state (route.renumber f) cause =
      (s.errorMove state route cause).renumber f := by
    unfold errorMove Move.renumber
    rw [h.methodOf]
  rw [hmove]
  exact h.follow now hroute.1 fun h => h.goToFailure now

/-! ## Steps -/

theorem outcome {r r' : Stepped σ τ} (h : RelaidIn f r r') : RelaidIn f r.outcome r'.outcome :=
  ⟨h.1, congrArg Except.ok h.2⟩

variable {b : Block}

theorem takeError (h : Relaid f s s') (now : Instant) (hb : b ∈ s.table.blocks) (state : String)
    (requested : Option String) (cause : Trouble) :
    RelaidIn f (s.takeError now b state requested cause)
      (s'.takeError now (b.renumber f) state requested cause) := by
  obtain ⟨hoffers, hroute⟩ := h.errorRoute hb
  unfold Session.takeError
  rw [hroute]
  exact outcome (h.follow now hoffers fun h => h.goToError now)

theorem held (h : Relaid f s s') : RelaidIn f s.held s'.held :=
  ⟨h, h.agree (·.held.2) fun _ _ _ => rfl⟩

theorem paused_eq (h : Relaid f s s') : s'.paused = s.paused :=
  h.agree Session.paused fun _ _ _ => rfl

/-- A value resolves to the same transition, or to the same problem. -/
theorem resolve (h : Relaid f s s') (hb : b ∈ s.table.blocks) (state value : String) :
    (∃ tr, s.table.Offers tr ∧ s.resolve b state value = .ok tr ∧
        s'.resolve (b.renumber f) state value = .ok (tr.renumber f)) ∨
      ∃ trouble, s.resolve b state value = .error trouble ∧
        s'.resolve (b.renumber f) state value = .error trouble := by
  obtain ⟨hoffers, hroute⟩ := h.errorRoute hb
  unfold Session.resolve
  rw [hroute, Block.next?_renumber h.separates.zero]
  split
  · exact .inl ⟨_, hoffers, rfl, rfl⟩
  · cases hnext : b.next? value with
    | none => exact .inr ⟨_, rfl, rfl⟩
    | some tr =>
      have htr : s.table.Offers tr := Table.offers_of_next? hb hnext
      simp only [Option.map_some, h.isExhausted htr]
      split
      · exact .inr ⟨_, rfl, rfl⟩
      · exact .inl ⟨tr, htr, rfl, rfl⟩

theorem takeValue (h : Relaid f s s') (watch : Watch) (now : Instant) (hb : b ∈ s.table.blocks)
    (state value : String) :
    RelaidIn f (s.takeValue watch now b state value)
      (s'.takeValue watch now (b.renumber f) state value) := by
  unfold Session.takeValue
  split
  · exact h.takeError now hb state _ _
  · rcases h.resolve hb state value with ⟨tr, htr, hok, hok'⟩ | ⟨trouble, herror, herror'⟩
    · rw [hok, hok']
      exact outcome (h.follow now htr fun h => h.goToError now)
    · have hnoted := h.note trouble
      rw [herror, herror']
      dsimp only
      rw [hnoted.paused_eq]
      split
      · exact hnoted.held
      · exact hnoted.takeError now hb state _ _

variable [Supply τ]

theorem selectFrom (h : Relaid f s s') (watch : Watch) (now : Instant) (hb : b ∈ s.table.blocks)
    (state : String) :
    RelaidIn f (s.selectFrom watch now b state)
      (s'.selectFrom watch now (b.renumber f) state) := by
  obtain ⟨hasked, hanswer⟩ := h.askValue state b.method
  have hb' : b ∈ (s.askValue state b.method).1.table.blocks := by
    rw [table_askValue]
    exact hb
  have hmethod : (b.renumber f).method = b.method := rfl
  unfold Session.selectFrom
  rw [h.paused_eq, hmethod]
  split
  · exact h.held
  · generalize s.askValue state b.method = asked at *
    generalize s'.askValue state b.method = asked' at *
    obtain ⟨left, answer⟩ := asked
    obtain ⟨left', answer'⟩ := asked'
    cases hanswer
    match answer with
    | .error e => exact ⟨hasked, rfl⟩
    | .ok (.error trouble) => exact (hasked.note trouble).takeError now hb' state _ _
    | .ok (.ok value) => exact hasked.takeValue watch now hb' state value

omit [Supply τ] in
theorem goOnWithoutBlock (h : Relaid f s s') (now : Instant) (state : String) (e : TableError) :
    RelaidIn f (s.goOnWithoutBlock now state e) (s'.goOnWithoutBlock now state e) := by
  have hexit : s'.task.exit = s.task.exit := h.agree (·.task.exit) fun _ _ _ => rfl
  unfold Session.goOnWithoutBlock
  rw [hexit]
  split
  · have hcomplete := h.complete now .finished ⟨.succeeded, none⟩
    exact ⟨hcomplete, congrArg Except.ok (hcomplete.completed 0)⟩
  · split
    · have hcomplete := h.complete now .terminated ⟨.terminated, none⟩
      exact ⟨hcomplete, congrArg Except.ok (hcomplete.completed 0)⟩
    · split
      · exact ⟨(h.setExit _).complete now .finished _, rfl⟩
      · exact outcome ((h.note _).goToFailure now state _)

theorem goOn (h : Relaid f s s') (watch : Watch) (now : Instant) (state : String) :
    RelaidIn f (s.goOn watch now state) (s'.goOn watch now state) := by
  unfold Session.goOn Table.block
  rw [h.block?]
  cases hb : s.table.block? state with
  | some b => exact h.selectFrom watch now (Table.mem_of_block? hb) state
  | none => exact h.goOnWithoutBlock now state _

theorem start (h : Relaid f s s') (watch : Watch) (now : Instant) :
    RelaidIn f (s.start watch now) (s'.start watch now) := by
  cases hstart : s.table.startState with
  | error e =>
    unfold Session.start
    rw [h.startState, hstart]
    exact ⟨h, rfl⟩
  | ok state =>
    obtain ⟨hentered, htrouble⟩ := (h.enterStart now state).enterLive state none
    rw [start_eq watch now hstart, start_eq watch now (h.startState.trans hstart), htrouble]
    generalize ((s.enterStart now state).enterLive state none).1 = entered at *
    generalize ((s'.enterStart now state).enterLive state none).1 = entered' at *
    cases ((s.enterStart now state).enterLive state none).2 with
    | none => exact hentered.goOn watch now state
    | some trouble =>
      simp only [settleStart]
      split
      · exact ⟨hentered.note trouble, rfl⟩
      · exact outcome ((hentered.note trouble).goToError now state trouble)

omit [Supply τ] in
theorem terminate (h : Relaid f s s') (now : Instant) (reason : String) :
    RelaidIn f (s.terminate now reason) (s'.terminate now reason) := by
  suffices hended : Relaid f (s.terminate now reason).1 (s'.terminate now reason).1 from
    ⟨hended, congrArg Except.ok (hended.completed 0)⟩
  obtain ⟨hphase, hcurrent⟩ := h.standing
  unfold Session.terminate
  dsimp only
  rw [hphase, hcurrent, h.hasBlock, h.methodOf]
  split
  · exact (h.enterLive _ _).1.complete now _ _
  · split
    · have harrived := (h.record (.transition (s.task.current.getD "")
        (s.methodOf (s.task.current.getD "")) Names.terminateRequested none .signal now)).arrive
          now Names.terminate true
      exact ((harrived.enterLive _ _).1.setExit _).complete now _ _
    · exact (h.setExit _).complete now _ _

omit [Supply τ] in
theorem consume (h : Relaid f s s') (x : Signal) :
    Relaid f { s with queue := s.queue.consume s.task.id x.id }
      { s' with queue := s'.queue.consume s'.task.id x.id } :=
  h.keep rfl rfl
    (congrArg (fun s : Session σ τ => { s with queue := s.queue.consume s.task.id x.id }) h.same)

theorem stepSeeing (h : Relaid f s s') (watch : Watch) (now : Instant) :
    RelaidIn f (s.stepSeeing watch now) (s'.stepSeeing watch now) := by
  obtain ⟨hphase, hcurrent⟩ := h.standing
  have hsignal : s'.signal? = s.signal? := h.agree Session.signal? fun _ _ _ => rfl
  have hcomplete : s'.isComplete = s.isComplete := h.agree Session.isComplete fun _ _ _ => rfl
  unfold Session.stepSeeing
  rw [hcomplete, hphase, hcurrent, hsignal]
  split
  · exact ⟨h, congrArg Except.ok (h.completed 0)⟩
  · cases s.signal? with
    | some x => exact (h.consume x).terminate now x.text
    | none =>
      dsimp only
      rw [h.paused_eq]
      split
      · exact h.held
      · split
        · exact h.start watch now
        · exact h.start watch now
        · exact h.goOn watch now _

/-! ## Courses -/

theorem clearCount (h : Relaid f s s') (state value : String) :
    Relaid f (s.act (.clearCount state value)) (s'.act (.clearCount state value)) := by
  rw [act_clearCount, act_clearCount, h.block?]
  cases hb : s.table.block? state with
  | none => exact h
  | some b =>
    have hfound : ((b.renumber f).transition? value <|>
          (b.renumber f).transition? Names.wildcard) =
        (b.transition? value <|> b.transition? Names.wildcard).map (Transition.renumber f) := by
      rw [Block.transition?_renumber, Block.transition?_renumber]
      cases b.transition? value <;> rfl
    simp only [Option.map_some, Option.bind_some, hfound]
    cases htr : b.transition? value <|> b.transition? Names.wildcard with
    | none => exact h
    | some tr =>
      have hmem : tr ∈ b.transitions := by
        cases hvalue : b.transition? value with
        | some own =>
          rw [hvalue] at htr
          cases htr
          exact List.mem_of_find?_eq_some hvalue
        | none =>
          rw [hvalue] at htr
          exact List.mem_of_find?_eq_some htr
      exact h.erase (Table.mem_declared (Table.mem_of_block? hb) hmem)

theorem act (h : Relaid f s s') (a : Action τ) :
    Relaid f (s.act a) (s'.act a) ∧ s'.replies a = s.replies a := by
  cases a with
  | step watch now =>
    obtain ⟨hstep, hresult⟩ := h.stepSeeing watch now
    exact ⟨hstep, congrArg (fun r => [r]) hresult⟩
  | hold paused =>
    exact ⟨h.keep rfl rfl (congrArg (fun s : Session σ τ => { s with paused }) h.same), rfl⟩
  | send task reason => exact ⟨h.keep rfl rfl (congrArg (·.send task reason) h.same), rfl⟩
  | simulate supply => exact ⟨h.withSupply _, rfl⟩
  | stopSimulating => exact ⟨h.withSupply _, rfl⟩
  | clearCount state value => exact ⟨h.clearCount state value, rfl⟩

/-- Whatever is done to the two sessions, they stay as they are related, with the same results. -/
theorem course (h : Relaid f s s') (as : List (Action τ)) :
    Relaid f (s.course as) (s'.course as) ∧ s'.results as = s.results as := by
  induction as generalizing s s' with
  | nil => exact ⟨h, rfl⟩
  | cons a as ih =>
    obtain ⟨hact, hreplies⟩ := h.act a
    obtain ⟨hcourse, hresults⟩ := ih hact
    exact ⟨hcourse, congrArg₂ (· ++ ·) hreplies hresults⟩

end Relaid

end Session
end TaskTable
