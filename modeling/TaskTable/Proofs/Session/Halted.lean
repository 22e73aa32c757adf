import TaskTable.Proofs.Session.Supplied

/-!
# Where the pause flag halts a step

A step looks at the pause flag up to three times. `halt?` is the look at which it returns because
of the flag, if it does. Where it does not, the flag has no say in the step (`stepSeeing_unhalted`);
where it does, a simulated task makes no move (`stepSeeing_halts`).
-/

namespace TaskTable
namespace Session

variable {σ τ : Type}

/-! ## What the flag has a say in -/

/-- Where a move is chosen, the flag had no say in it. -/
theorem choose_clear {watch : Watch} {s s' : Session σ τ} {b : Block} {state : String}
    {answer : Except Trouble String} {m : Move}
    (h : s.choose watch b state answer = (s', some m)) :
    s.choose .clear b state answer = (s', some m) := by
  unfold choose at h ⊢
  split at h
  · exact h
  · split at h
    · next hvalue => rw [if_pos hvalue]; exact h
    · next hvalue =>
      rw [if_neg hvalue]
      split at h
      · exact h
      · split at h
        · cases h
        · exact h

/-- The session in which a step goes on, and the state: as it is, or once the first state is
entered. -/
inductive GoesOnFrom (now : Instant) (s : Session σ τ) : Session σ τ → String → Prop
  | running {state : String} (phase : s.task.phase = .running)
      (current : s.task.current = some state) : GoesOnFrom now s s state
  | entered {state : String} (ongoing : s.isComplete = false)
      (fresh : s.task.phase = .notStarted ∨ s.task.current = none)
      (start : s.table.startState = .ok state) : GoesOnFrom now s (s.enterStart now state) state

theorem GoesOnFrom.supply_eq {now : Instant} {s s₁ : Session σ τ} {state : String}
    (h : GoesOnFrom now s s₁ state) : s₁.supply = s.supply := by
  cases h <;> rfl

variable [Supply τ]

/-- The look at which a task is halted that goes on in a state, if it is. -/
def goOnHalt? (watch : Watch) (s : Session σ τ) (state : String) : Option Look :=
  match s.table.block? state with
  | none => none
  | some b =>
    if watch .firstRound s.paused then some .firstRound
    else
      match s.askValue state b.method with
      | (_, .error _) => none
      | (s, .ok answer) =>
        match s.choose watch b state answer with
        | (_, none) => some .secondRound
        | (_, some _) => none

/-- The look at which a step returns because of the pause flag, if it does. -/
def halt? (watch : Watch) (now : Instant) (s : Session σ τ) : Option Look :=
  if s.isComplete then none
  else
    match s.signal? with
    | some _ => none
    | none =>
      if watch .atStart s.paused then some .atStart
      else
        match s.task.phase, s.task.current with
        | .notStarted, _ | _, none =>
          match s.table.startState with
          | .error _ => none
          | .ok state =>
            match (s.enterStart now state).enterLive state none with
            | (s, none) => s.goOnHalt? watch state
            | (_, some _) => none
        | _, some state => s.goOnHalt? watch state

/-! ## Going on in a state -/

/-- Where it is not halted, a task goes on in a state as if the flag was down. -/
theorem goOn_unhalted {watch : Watch} {s : Session σ τ} {state : String}
    (h : s.goOnHalt? watch state = none) (now : Instant) :
    s.goOn watch now state = s.goOn .clear now state ∧
      s.goOnItinerary watch now state = s.goOnItinerary .clear now state := by
  unfold goOnHalt? at h
  unfold goOn goOnItinerary Table.block
  cases hb : s.table.block? state with
  | none => exact ⟨rfl, rfl⟩
  | some b =>
    rw [hb] at h
    dsimp only at h ⊢
    rw [selectFrom_eq, selectFrom_eq]
    unfold selectItinerary
    by_cases hfirst : watch .firstRound s.paused = true
    · rw [if_pos hfirst] at h
      cases h
    · rw [if_neg hfirst] at h ⊢
      rw [if_neg hfirst, if_neg (c := Watch.clear .firstRound s.paused = true) Bool.false_ne_true,
        if_neg (c := Watch.clear .firstRound s.paused = true) Bool.false_ne_true]
      generalize s.askValue state b.method = asked at h ⊢
      obtain ⟨s', e | answer⟩ := asked
      · exact ⟨rfl, rfl⟩
      · dsimp only at h ⊢
        generalize hchosen : s'.choose watch b state answer = chosen at h ⊢
        obtain ⟨s'', _ | m⟩ := chosen
        · cases h
        · rw [choose_clear hchosen]
          exact ⟨rfl, rfl⟩

/-- What comes of a simulated task with the supply `x` that is halted in a state. -/
inductive HaltsIn (s : Session σ τ) (x : τ) (state : String) : Look → Itinerary → Outcome σ τ → Prop
  | firstRound : HaltsIn s x state .firstRound {} s.held
  /-- A value was given that does not resolve. -/
  | secondRound (b : Block) (value : String) (y : τ) (trouble : Trouble)
      (block : s.table.block? state = some b)
      (next : Supply.next x state b.method = (y, .ok value))
      (refused : s.resolve b state value = .error trouble) :
      HaltsIn s x state .secondRound { consulted := some ⟨state, b.method, value, true⟩ }
        ({ s with supply := some y }.note trouble).held

theorem goOn_halts {watch : Watch} {s : Session σ τ} {x : τ} (hsupply : s.supply = some x)
    {state : String} {look : Look} (h : s.goOnHalt? watch state = some look) (now : Instant) :
    HaltsIn s x state look (s.goOnItinerary watch now state) (s.goOn watch now state) := by
  unfold goOnHalt? at h
  unfold goOn goOnItinerary Table.block
  cases hb : s.table.block? state with
  | none =>
    rw [hb] at h
    cases h
  | some b =>
    rw [hb] at h
    dsimp only at h ⊢
    rw [selectFrom_eq]
    unfold selectItinerary
    by_cases hfirst : watch .firstRound s.paused = true
    · rw [if_pos hfirst] at h
      cases h
      rw [if_pos hfirst, if_pos hfirst]
      exact .firstRound
    · rw [if_neg hfirst] at h ⊢
      rw [if_neg hfirst]
      rw [askValue_of_supply hsupply] at h ⊢
      generalize hnext : Supply.next x state b.method = given at h ⊢
      obtain ⟨y, e | value⟩ := given
      · cases h
      · dsimp only [Except.map] at h ⊢
        generalize hchosen :
          ({ s with supply := some y } : Session σ τ).choose watch b state (.ok value) = chosen
            at h ⊢
        obtain ⟨s'', _ | m⟩ := chosen
        · cases h
          obtain ⟨-, value, trouble, ⟨⟩, hresolve, rfl⟩ := choose_eq_none hchosen
          exact .secondRound b value y trouble hb hnext hresolve
        · cases h

/-! ## Whole steps -/

/-- A simulated task that can start goes on in a state, unless a signal comes first, or the flag. -/
theorem stepSeeing_goesOn {s : Session σ τ} (hsimulating : s.isSimulating = true)
    (hongoing : s.isComplete = false) (hquiet : s.signal? = none) {first : String}
    (hstart : s.table.startState = .ok first) (now : Instant) :
    ∃ s₁ state, GoesOnFrom now s s₁ state ∧
      ∀ watch : Watch, watch .atStart s.paused = false →
        s.stepSeeing watch now = s₁.goOn watch now state ∧
          s.itinerary watch now = s₁.goOnItinerary watch now state ∧
          s.halt? watch now = s₁.goOnHalt? watch state := by
  have hlive : (s.enterStart now first).enterLive first none = (s.enterStart now first, none) :=
    enterLive_of_isSimulating (s := s.enterStart now first) hsimulating _ _
  have hfresh : (s.task.phase = .notStarted ∨ s.task.current = none) →
      ∃ s₁ state, GoesOnFrom now s s₁ state ∧
        ∀ watch : Watch, watch .atStart s.paused = false →
          s.stepSeeing watch now = s₁.goOn watch now state ∧
            s.itinerary watch now = s₁.goOnItinerary watch now state ∧
            s.halt? watch now = s₁.goOnHalt? watch state := by
    intro hfresh
    refine ⟨_, first, .entered hongoing hfresh hstart, fun watch hfree => ?_⟩
    have hstarts := start_of_isSimulating hsimulating watch now hstart
    unfold stepSeeing itinerary halt? startItinerary
    rw [hongoing, hquiet, hfree, hstart]
    dsimp only
    rw [hlive, hstarts]
    rcases hfresh with hphase | hcurrent
    · rw [hphase]
      exact ⟨rfl, rfl, rfl⟩
    · rw [hcurrent]
      cases s.task.phase <;> exact ⟨rfl, rfl, rfl⟩
  cases hphase : s.task.phase with
  | notStarted => exact hfresh (.inl hphase)
  | finished | terminated =>
    rw [isComplete_of_phase hphase] at hongoing
    cases hongoing
  | running =>
    cases hcurrent : s.task.current with
    | none => exact hfresh (.inr hcurrent)
    | some state =>
      refine ⟨s, state, .running hphase hcurrent, fun watch hfree => ?_⟩
      unfold stepSeeing itinerary halt?
      rw [hongoing, hquiet, hfree, hphase, hcurrent]
      exact ⟨rfl, rfl, rfl⟩

theorem itinerary_signal {s : Session σ τ} {x : Signal} (hongoing : s.isComplete = false)
    (hsignal : s.signal? = some x) (watch : Watch) (now : Instant) :
    s.itinerary watch now = {} := by
  unfold itinerary
  rw [hongoing, hsignal]
  rfl

/-- Where a step is not halted, the flag has no say in it. -/
theorem stepSeeing_unhalted {watch : Watch} {now : Instant} {s : Session σ τ}
    (hsimulating : s.isSimulating = true) {first : String}
    (hstart : s.table.startState = .ok first) (h : s.halt? watch now = none) :
    s.stepSeeing watch now = s.stepSeeing .clear now ∧
      s.itinerary watch now = s.itinerary .clear now := by
  cases hongoing : s.isComplete with
  | true =>
    have hstep (watch : Watch) : s.stepSeeing watch now = (s, .ok (s.completed 0)) :=
      if_pos hongoing
    have hitinerary (watch : Watch) : s.itinerary watch now = {} := if_pos hongoing
    exact ⟨(hstep watch).trans (hstep .clear).symm,
      (hitinerary watch).trans (hitinerary .clear).symm⟩
  | false =>
    cases hquiet : s.signal? with
    | some x =>
      exact ⟨(stepSeeing_signal hongoing hquiet watch now).trans
          (stepSeeing_signal hongoing hquiet .clear now).symm,
        (itinerary_signal hongoing hquiet watch now).trans
          (itinerary_signal hongoing hquiet .clear now).symm⟩
    | none =>
      cases hfree : watch .atStart s.paused with
      | true =>
        unfold halt? at h
        rw [hongoing, hquiet, hfree] at h
        cases h
      | false =>
        obtain ⟨s₁, state, -, hgoes⟩ := stepSeeing_goesOn hsimulating hongoing hquiet hstart now
        obtain ⟨hstep, hitinerary, hhalt⟩ := hgoes watch hfree
        obtain ⟨hstep', hitinerary', -⟩ := hgoes .clear rfl
        obtain ⟨hgoOn, hgoOn'⟩ := goOn_unhalted (hhalt.symm.trans h) now
        rw [hstep, hitinerary, hstep', hitinerary']
        exact ⟨hgoOn, hgoOn'⟩

/-- What comes of a step of a simulated task with the supply `x` that is halted. -/
inductive Halts (now : Instant) (s : Session σ τ) (x : τ) : Look → Itinerary → Outcome σ τ → Prop
  | atStart : Halts now s x .atStart {} s.held
  | goesOn {s₁ : Session σ τ} {state : String} {look : Look} {i : Itinerary} {o : Outcome σ τ}
      (goesOn : GoesOnFrom now s s₁ state) (halts : HaltsIn s₁ x state look i o) :
      Halts now s x look i o

theorem stepSeeing_halts {watch : Watch} {now : Instant} {s : Session σ τ} {x : τ}
    (hsupply : s.supply = some x) {first : String} (hstart : s.table.startState = .ok first)
    {look : Look} (h : s.halt? watch now = some look) :
    Halts now s x look (s.itinerary watch now) (s.stepSeeing watch now) := by
  have hparts := h
  unfold halt? at hparts
  cases hongoing : s.isComplete with
  | true =>
    rw [hongoing] at hparts
    cases hparts
  | false =>
    rw [hongoing] at hparts
    cases hquiet : s.signal? with
    | some x =>
      rw [hquiet] at hparts
      cases hparts
    | none =>
      rw [hquiet] at hparts
      cases hfree : watch .atStart s.paused with
      | true =>
        rw [hfree] at hparts
        cases hparts
        unfold stepSeeing itinerary
        rw [hongoing, hquiet, hfree]
        exact .atStart
      | false =>
        obtain ⟨s₁, state, hfrom, hgoes⟩ :=
          stepSeeing_goesOn (isSimulating_of_supply hsupply) hongoing hquiet hstart now
        obtain ⟨hstep, hitinerary, hhalt⟩ := hgoes watch hfree
        rw [hstep, hitinerary]
        exact .goesOn hfrom (goOn_halts (hfrom.supply_eq.trans hsupply) (hhalt.symm.trans h) now)

end Session
end TaskTable
