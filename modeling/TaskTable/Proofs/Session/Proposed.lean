import TaskTable.Proofs.Session.Supplied
import TaskTable.Proofs.Session.Walk
import TaskTable.Proofs.Supply.Drawing
import TaskTable.Random.ChaCha

/-!
# What a simulated task is offered

A simulated task asks its supply for a value in the block of the state that it is in, and for
nothing else. So what holds of all values that supplies of a kind give for the blocks of a table
(`Supply.Offers`) holds of every value that is recorded as selected along a course, and of every
value that `!` was taken in place of (`course_offers`). For random supplies these values are legal,
and where they are those of the block, none of them is unknown there.
-/

namespace TaskTable

/-- Supplies of a kind give values of a kind for the blocks of a table, and stay of their kind
whatever a session does to them. -/
structure Supply.Offers {τ : Type} [Supply τ] (t : Table) (kind : τ → Prop)
    (offered : Block → String → Prop) : Prop where
  next : ∀ x, kind x → ∀ state method, kind (Supply.next x state method).1
  rewind : ∀ x, kind x → kind (Supply.rewind x)
  value : ∀ x, kind x → ∀ state b, t.block? state = some b →
    ∀ y value, Supply.next x state b.method = (y, .ok value) → offered b value

theorem Supply.Offers.kind_of_next {τ : Type} [Supply τ] {t : Table} {kind : τ → Prop}
    {offered : Block → String → Prop} (h : Supply.Offers t kind offered) {x y : τ} (hx : kind x)
    {state method : String} {answer : Except SupplyError String}
    (hnext : Supply.next x state method = (y, answer)) : kind y := by
  have hy := h.next x hx state method
  rwa [hnext] at hy

/-- An action leaves a task simulated, by a supply of a kind. -/
def Action.Supplies {τ : Type} (kind : τ → Prop) : Action τ → Prop
  | simulate supply => kind supply
  | stopSimulating => False
  | _ => True

/-! ## What is recorded -/

/-- An event that a table lets a step record: where a value was selected, the state's selector may
have asked for it, and no value but a selected one has another taken in its place. -/
def Event.Entitled (t : Table) : Event → Prop
  | state _ _ _ => True
  | transition left method value requested .selector _ =>
    ∃ b, t.block? left = some b ∧ method = b.method ∧ b.AskedFor value requested
  | transition _ _ _ requested _ _ => requested = none

/-- A trace goes on from another one with events that a table lets steps record. -/
def Trace.Extends (t : Table) (tr tr' : Trace) : Prop :=
  ∃ es, tr'.events = tr.events ++ es ∧ ∀ e ∈ es, e.Entitled t

theorem Trace.Extends.append {t : Table} {tr tr' tr'' : Trace} (h : Extends t tr tr')
    (more : List Event) (hevents : tr''.events = tr'.events ++ more)
    (hmore : ∀ e ∈ more, e.Entitled t) : Extends t tr tr'' := by
  obtain ⟨es, hes, hentitled⟩ := h
  refine ⟨es ++ more, by rw [hevents, hes, List.append_assoc], fun e he => ?_⟩
  exact (List.mem_append.1 he).elim (hentitled e) (hmore e)

theorem Table.Hop.entitled {t : Table} {here there : String} {e : Event} {executed : Bool}
    {now : Instant} (h : t.Hop here e (.state there executed now)) : e.Entitled t := by
  cases h with
  | taken block _ asked | refused block _ asked => exact ⟨_, block, rfl, asked⟩
  | recovered | failed => rfl

/-- Whatever turns a trace records events that its table lets steps record. -/
theorem Trace.Extends.turns {σ τ : Type} {s : Session σ τ} {tr tr' : Trace}
    (h : Extends s.table tr s.trace) (hturns : s.Turns tr') : Extends s.table tr tr' := by
  cases hturns with
  | same | stopped => exact h
  | started now state =>
    refine h.append [.state state true now] rfl fun e he => ?_
    rw [List.mem_singleton.1 he]
    trivial
  | moved now m allowed =>
    refine h.append _ (Trace.move_events now s.trace m) fun e he => ?_
    rcases List.mem_cons.1 he with rfl | he
    · exact (allowed.warrants.hop now).entitled
    · rw [List.mem_singleton.1 he]
      trivial
  | signalled now =>
    refine h.append _ (List.append_assoc ..) fun e he => ?_
    rcases List.mem_cons.1 he with rfl | he
    · rfl
    · rw [List.mem_singleton.1 he]
      trivial

namespace Session

variable {σ τ : Type} [Supply τ]

/-- A course records events that its table lets steps record. -/
theorem course_extends (s : Session σ τ) (as : List (Action τ)) :
    Trace.Extends s.table s.trace (s.course as).trace := by
  refine trace_induction (P := Trace.Extends s.table s.trace) ⟨[], (List.append_nil _).symm, nofun⟩
    (fun s' tr htable hs' hturns => ?_) fun tr line _ htr => htr
  rw [← htable] at hs' ⊢
  exact hs'.turns hturns

/-! ## What is asked for -/

/-- What is asked for in a state is asked for the block of the state. -/
theorem block_of_goOnItinerary {s : Session σ τ} {watch : Watch} {now : Instant} {state : String}
    {x : Consultation} (h : (s.goOnItinerary watch now state).consulted = some x) :
    ∃ b, s.table.block? x.state = some b ∧ x.method = b.method := by
  unfold goOnItinerary Table.block at h
  cases hb : s.table.block? state with
  | none =>
    rw [hb] at h
    dsimp only at h
    split at h <;> cases h
  | some b =>
    rw [hb] at h
    dsimp only [selectItinerary] at h
    split at h
    · cases h
    · generalize s.askValue state b.method = asked at h
      obtain ⟨s', e | answer⟩ := asked
      · cases h
      · dsimp only at h
        generalize s'.choose watch b state answer = chosen at h
        obtain ⟨s'', _ | m⟩ := chosen
        · cases h
          exact ⟨b, hb, rfl⟩
        · cases h
          exact ⟨b, hb, rfl⟩

theorem block_of_consulted {s : Session σ τ} {watch : Watch} {now : Instant} {x : Consultation}
    (h : (s.itinerary watch now).consulted = some x) :
    ∃ b, s.table.block? x.state = some b ∧ x.method = b.method := by
  have hstart : (s.startItinerary watch now).consulted = some x →
      ∃ b, s.table.block? x.state = some b ∧ x.method = b.method := by
    intro h
    unfold startItinerary at h
    cases hstate : s.table.startState with
    | error e =>
      rw [hstate] at h
      cases h
    | ok state =>
      rw [hstate] at h
      dsimp only at h
      have htable : ((s.enterStart now state).enterLive state none).1.table = s.table :=
        table_enterLive _ _ _
      generalize (s.enterStart now state).enterLive state none = entered at h htable
      obtain ⟨s', _ | trouble⟩ := entered
      · rw [← htable]
        exact block_of_goOnItinerary h
      · dsimp only at h
        split at h <;> cases h
  unfold itinerary at h
  split at h
  · cases h
  · split at h
    · cases h
    · split at h
      · cases h
      · split at h
        · exact hstart h
        · exact hstart h
        · exact block_of_goOnItinerary h

/-! ## What is given -/

/-- A simulated session goes on to another one by supplies of a kind, and what is selected on the
way is what these give for blocks. -/
structure Offered (kind : τ → Prop) (offered : Block → String → Prop) (s s' : Session σ τ) :
    Prop where
  supply : ∃ y, s'.supply = some y ∧ kind y
  selected : ∃ asked, s'.selected = s.selected ++ asked ∧
    ∀ e ∈ asked, ∃ b, s.table.block? e.1 = some b ∧ offered b e.2

variable {kind : τ → Prop} {offered : Block → String → Prop} {s : Session σ τ} {x : τ}

omit [Supply τ] in
theorem Offered.of_eq {s' : Session σ τ} {y : τ} (hsupply : s'.supply = some y) (hy : kind y)
    (hselected : s'.selected = s.selected) : Offered kind offered s s' :=
  ⟨⟨y, hsupply, hy⟩, [], by rw [hselected, List.append_nil], nofun⟩

/-- A step asks once at most. -/
theorem stepSeeing_offers (hoffers : Supply.Offers s.table kind offered)
    (hsupply : s.supply = some x) (hx : kind x) (watch : Watch) (now : Instant) :
    Offered kind offered s (s.stepSeeing watch now).1 := by
  cases stepSeeing_draws watch now hsupply with
  | nothing _ supply selected => exact .of_eq supply hx selected
  | gaveOut state method y e next _ supply selected
  | lost state method _ y next _ supply selected =>
    exact .of_eq supply (hoffers.kind_of_next hx next) selected
  | value state method value y next consulted supply selected =>
    refine ⟨⟨y, supply, hoffers.kind_of_next hx next⟩, [(state, value)], selected, fun e he => ?_⟩
    rw [List.mem_singleton.1 he]
    obtain ⟨b, hb, rfl⟩ := block_of_consulted consulted
    exact ⟨b, hb, hoffers.value x hx state b hb y value next⟩

theorem act_offers (hoffers : Supply.Offers s.table kind offered) (hsupply : s.supply = some x)
    (hx : kind x) {a : Action τ} (ha : a.Supplies kind) : Offered kind offered s (s.act a) := by
  cases a with
  | step watch now => exact stepSeeing_offers hoffers hsupply hx watch now
  | hold | send => exact .of_eq hsupply hx rfl
  | simulate supply => exact .of_eq rfl (hoffers.rewind supply ha) rfl
  | stopSimulating => exact ha.elim
  | clearCount state value =>
    rcases s.clearCount_act state value with heq | ⟨line, heq⟩ <;> rw [heq]
    · exact .of_eq hsupply hx rfl
    · exact .of_eq hsupply hx rfl

theorem course_offered (hoffers : Supply.Offers s.table kind offered) (hsupply : s.supply = some x)
    (hx : kind x) {as : List (Action τ)} (has : ∀ a ∈ as, a.Supplies kind) :
    Offered kind offered s (s.course as) := by
  induction as generalizing s x with
  | nil => exact .of_eq hsupply hx rfl
  | cons a rest ih =>
    have htable := s.table_act a
    obtain ⟨⟨y, hy, hkind⟩, asked, hasked, hblocks⟩ :=
      act_offers hoffers hsupply hx (has a List.mem_cons_self)
    obtain ⟨hlast, later, hlater, hblocks'⟩ :=
      ih (htable ▸ hoffers) hy hkind fun a' ha' => has a' (List.mem_cons_of_mem a ha')
    refine ⟨hlast, asked ++ later, ?_, fun e he => ?_⟩
    · rw [← List.append_assoc, ← hasked]
      exact hlater
    · rcases List.mem_append.1 he with he | he
      · exact hblocks e he
      · rw [← htable]
        exact hblocks' e he

/-- A course of a simulated task records no value as selected that its supplies do not give for the
block, and takes `!` in place of no other. -/
theorem course_offers (hoffers : Supply.Offers s.table kind offered) (hsupply : s.supply = some x)
    (hx : kind x) {as : List (Action τ)} (has : ∀ a ∈ as, a.Supplies kind) :
    ∃ es, (s.course as).task.recording.events = s.task.recording.events ++ es ∧
      ∀ left method value requested origin time,
        .transition left method value requested origin time ∈ es →
          origin = .selector ∧ (∃ b, s.table.block? left = some b ∧ method = b.method ∧
            b.AskedFor value requested ∧ offered b (requested.getD value)) ∨
          origin ≠ .selector ∧ requested = none := by
  obtain ⟨es, hevents, hentitled⟩ := s.course_extends as
  obtain ⟨-, asked, hasked, hblocks⟩ := course_offered hoffers hsupply hx has
  -- what was selected is read off the events
  have hselected : es.filterMap Event.selected? = asked := by
    have hall : (s.course as).selected = s.selected ++ es.filterMap Event.selected? := by
      show (s.course as).trace.events.filterMap Event.selected? = _
      rw [hevents, List.filterMap_append]
      rfl
    rw [hasked] at hall
    exact (List.append_cancel_left hall).symm
  refine ⟨es, hevents, fun left method value requested origin time he => ?_⟩
  have hentitled' := hentitled _ he
  cases origin with
  | selector =>
    obtain ⟨b, hb, hmethod, hasks⟩ := hentitled'
    obtain ⟨b', hb', hoffered⟩ := hblocks (left, requested.getD value) <| by
      rw [← hselected]
      exact List.mem_filterMap.2 ⟨_, he, rfl⟩
    cases hb.symm.trans hb'
    exact .inl ⟨rfl, b, hb, hmethod, hasks, hoffered⟩
  | fallback | signal => exact .inr ⟨nofun, hentitled'⟩

end Session

/-! ## Random supplies -/

namespace RandomSupply

variable {γ : Type} [Generator γ]

theorem offers_legal {t : Table} (hwf : t.WellFormed) (c : Catalog) :
    Supply.Offers t (Built (γ := γ) t c) (Legal c) where
  next _ hx state method := hx.next state method
  rewind _ hx := hx.rewind
  value x hx state b hb y value hnext := by
    obtain ⟨hmem, rfl⟩ := hwf.mem_of_block? hb
    obtain ⟨y', value', hnext', hlegal, -⟩ := hx.next_legal hwf hmem
    cases hnext.symm.trans hnext'
    exact hlegal

/-- Where nothing is declared for the method of a block, a legal value other than `!` is declared in
the block. -/
theorem Legal.exists_transition {c : Catalog} {b : Block} {value : String} (h : Legal c b value)
    (hmethod : b.method ≠ Names.emptyTransition) (hundeclared : c.valuesOf b.method = [])
    (hvalue : value ≠ Names.error) : ∃ e, b.transition? value = some e := by
  cases h with
  | error => exact absurd rfl hvalue
  | empty hempty => exact absurd hempty hmethod
  | declared _ hdeclared =>
    rw [hundeclared] at hdeclared
    cases hdeclared
  | own _ _ hown =>
    obtain ⟨e, he, rfl⟩ := List.mem_map.1 hown
    exact Option.isSome_iff_exists.1 (List.find?_isSome.2 ⟨e, he, beq_self_eq_true e.value⟩)

/-- What a course records as selected, while random supplies for its table simulate it, is legal for
the block that is left, and so is a value that `!` was taken in place of. A value that the block
declares was replaced because of its limit. -/
theorem course_legal {σ : Type} {s : Session σ (RandomSupply γ)} (hwf : s.table.WellFormed)
    {c : Catalog} {x : RandomSupply γ} (hsupply : s.supply = some x) (hx : Built s.table c x)
    {as : List (Action (RandomSupply γ))} (has : ∀ a ∈ as, a.Supplies (Built s.table c)) :
    ∃ es, (s.course as).task.recording.events = s.task.recording.events ++ es ∧
      ∀ left method value requested origin time,
        .transition left method value requested origin time ∈ es →
        (origin = .selector → ∃ b, s.table.block? left = some b ∧ method = b.method ∧
          Legal c b (requested.getD value)) ∧
        ∀ r, requested = some r → ∃ b, s.table.block? left = some b ∧ method = b.method ∧
          Legal c b r ∧ (b.method ≠ Names.emptyTransition → c.valuesOf b.method = [] →
            ∃ e, b.transition? r = some e ∧ 0 < e.max) := by
  obtain ⟨es, hevents, hes⟩ := Session.course_offers (offers_legal hwf c) hsupply hx has
  refine ⟨es, hevents, fun left method value requested origin time he => ?_⟩
  rcases hes left method value requested origin time he with
    ⟨-, b, hb, hmethod, hasked, hlegal⟩ | ⟨horigin, hnone⟩
  · refine ⟨fun _ => ⟨b, hb, hmethod, hlegal⟩, fun r hr => ?_⟩
    subst hr
    obtain ⟨-, hne, hlimited⟩ := hasked
    have hr : Legal c b r := hlegal
    refine ⟨b, hb, hmethod, hr, fun hempty hundeclared => ?_⟩
    obtain ⟨e, he⟩ := hr.exists_transition hempty hundeclared hne
    exact ⟨e, he, hlimited e (by rw [Block.next?, he])⟩
  · refine ⟨fun h => absurd h horigin, fun r hr => ?_⟩
    rw [hnone] at hr
    cases hr

/-- Random supplies for a table draw legal values only. Each seed and each chance of `!` between 0
and 1 makes a supply; whatever was drawn from it, it gives a legal value for every block, and `!`
by chance, where it is declared, or where there is nothing else to give. What a task that such
supplies simulate records as selected is legal for the block that it leaves. So is a value that `!`
was taken in place of; and if nothing is declared for the method, as without a catalog, and it is
not the built-in one, the block has a transition for the value, which was replaced because of its
limit. A supply that is rewound at any point answers as it did when it was given its seed. -/
theorem random_draws_legal {σ γ : Type} [Generator γ] {source : String} {t : Table}
    (hcompile : Table.compile source = .ok t) (c : Catalog) :
    (∀ (seed : UInt64) (p : Number.Binary64), p.isProbability = true →
      ∃ x : RandomSupply γ, (ofTable t c seed).withProbability p = .ok x ∧ Built t c x) ∧
    (∀ x : RandomSupply γ, Built t c x → ∀ b ∈ t.blocks,
      ∃ y value, Supply.next x b.state b.method = (y, .ok value) ∧ Legal c b value ∧
        (value = Names.error →
          (Generator.chance x.failureProbability.timesTwoPow64 x.generator).1 = true ∨
            Names.error ∈ c.valuesOf b.method ∨ candidatesOf b c = [])) ∧
    (∀ (s : Session σ (RandomSupply γ)) (x : RandomSupply γ) (as : List (Action (RandomSupply γ))),
      s.table = t → s.supply = some x → Built t c x → (∀ a ∈ as, a.Supplies (Built t c)) →
      ∃ es, (s.course as).task.recording.events = s.task.recording.events ++ es ∧
        ∀ left method value requested origin time,
          .transition left method value requested origin time ∈ es →
          (origin = .selector → ∃ b, t.block? left = some b ∧ method = b.method ∧
            Legal c b (requested.getD value)) ∧
          ∀ r, requested = some r → ∃ b, t.block? left = some b ∧ method = b.method ∧
            Legal c b r ∧ (b.method ≠ Names.emptyTransition → c.valuesOf b.method = [] →
              ∃ e, b.transition? r = some e ∧ 0 < e.max)) ∧
    ∀ (x : RandomSupply γ) (seed : UInt64) (y : RandomSupply γ),
      Supply.Reaches (x.withSeed seed) y → ∀ questions,
        Supply.answers (Supply.rewind y) questions =
          Supply.answers (x.withSeed seed) questions := by
  have hwf := Table.wellFormed_of_compile hcompile
  refine ⟨fun seed p hp => ?_, fun x hx b hb => hx.next_legal hwf hb,
    fun s x as htable hsupply hx has => ?_, fun x seed y hy questions => ?_⟩
  · have hset : (ofTable t c seed : RandomSupply γ).withProbability p =
        .ok { (ofTable t c seed : RandomSupply γ) with failureProbability := p } := if_pos hp
    exact ⟨_, hset, .withProbability (.ofTable seed) hset⟩
  · subst htable
    exact course_legal hwf hsupply hx has
  · rw [rewind_of_reaches hy]
    rfl

/-- A supply for `pollTable` that asks three times to poll again, and then for the error route. -/
def pollDrawn : RandomSupply ChaCha :=
  { (ofTable Session.pollTable {} 112 : RandomSupply ChaCha) with
    failureProbability := ⟨0x3fb999999999999a⟩ }

/-- A task that is simulated by it. -/
def drawnPoll : Setup Unit (RandomSupply ChaCha) where
  table := Session.pollTable
  handler := Handler.none
  memory := ()
  taskId := "poll"
  supply := some pollDrawn

theorem built_pollDrawn : Built Session.pollTable {} pollDrawn :=
  .withProbability (x := ofTable Session.pollTable {} 112) (p := ⟨0x3fb999999999999a⟩)
    (.ofTable 112) rfl

/-- The third value is replaced, because the task may poll again no more than twice. Rewound after a
draw, the supply draws the same values again. -/
theorem random_draws_legal_pollDrawn :
    Table.compile Session.pollSource = .ok Session.pollTable ∧
    Built Session.pollTable {} pollDrawn ∧
    Event.transition "poll" "check" "!" (some "again") .selector ⟨0, 0⟩ ∈
      ((drawnPoll.newSession ⟨0, 0⟩).course
        (List.replicate 3 (.step .steady ⟨0, 0⟩))).task.recording.events ∧
    (∃ b e, Session.pollTable.block? "poll" = some b ∧ b.transition? "again" = some e ∧
      0 < e.max) ∧
    Supply.answers (Supply.rewind (Supply.next pollDrawn "poll" "check").1)
        (List.replicate 4 ("poll", "check")) =
      [.ok "again", .ok "again", .ok "again", .ok "!"] := by
  have hreplaced : Event.transition "poll" "check" "!" (some "again") .selector ⟨0, 0⟩ ∈
      ((drawnPoll.newSession ⟨0, 0⟩).course
        (List.replicate 3 (.step .steady ⟨0, 0⟩))).task.recording.events := by decide +kernel
  obtain ⟨-, -, hruns, hagain⟩ :=
    random_draws_legal (σ := Unit) (γ := ChaCha) Session.compile_pollSource {}
  obtain ⟨es, hevents, hes⟩ := hruns (drawnPoll.newSession ⟨0, 0⟩) pollDrawn
    (List.replicate 3 (.step .steady ⟨0, 0⟩)) rfl rfl built_pollDrawn fun a ha => by
      rw [List.eq_of_mem_replicate ha]
      trivial
  -- nothing was recorded before the first step
  have hnew : (drawnPoll.newSession ⟨0, 0⟩).task.recording.events = [] := rfl
  have hmem := hreplaced
  rw [hevents, hnew, List.nil_append] at hmem
  obtain ⟨b, hb, hmethod, -, hknown⟩ := (hes _ _ _ _ _ _ hmem).2 "again" rfl
  obtain ⟨e, he, hmax⟩ := hknown (by rw [← hmethod]; decide) rfl
  have hanswers : Supply.answers pollDrawn (List.replicate 4 ("poll", "check")) =
      [.ok "again", .ok "again", .ok "again", .ok "!"] := by decide +kernel
  exact ⟨Session.compile_pollSource, built_pollDrawn, hreplaced, ⟨b, e, hb, he, hmax⟩,
    (hagain pollDrawn 112 _ (.next .refl "poll" "check") _).trans hanswers⟩

end RandomSupply

end TaskTable
