import TaskTable.Proofs.Session.Course
import TaskTable.Proofs.Table.WellFormed
import TaskTable.Supply.Scripted

/-!
# Limits

A transition is taken no more often than it may be, along any course of a session. Counts are kept
by the lines of declarations, which a compiled table gives out once each; `Trace.Counted` is what
every move keeps, and `Trace.Tallied` says that a count is the number of recorded moves as long as
no count is cleared.
-/

namespace TaskTable

/-! ## Values and transitions -/

/-- The transition that a value takes is the route to `terminate` or one of the block's. Only `!`
takes the transition that is declared for `!`. -/
theorem Block.next?_eq_some {b : Block} {value : String} {t : Transition}
    (h : b.next? value = some t) :
    t = .toTerminate ∨ t ∈ b.transitions ∧ (t.value = Names.error ↔ value = Names.error) := by
  unfold next? at h
  split at h
  · next t' ht' =>
    cases h
    have hvalue : t.value = value := by simpa using List.find?_some ht'
    exact .inr ⟨List.mem_of_find?_eq_some ht', by rw [hvalue]⟩
  · split at h
    · cases h
      exact .inl rfl
    · split at h
      · cases h
      · next herror =>
        have hvalue : t.value = Names.wildcard := by simpa using List.find?_some h
        refine .inr ⟨List.mem_of_find?_eq_some h, ?_⟩
        rw [hvalue]
        exact ⟨fun h => absurd h (by decide), fun h => absurd h herror⟩

/-- The routes that every state has are declared nowhere. -/
theorem Transition.isImplicit_of_eq {t : Transition} (h : t = .toFailure ∨ t = .toTerminate) :
    t.isImplicit = true := by
  rcases h with rfl | rfl <;> rfl

namespace Session

variable {σ τ : Type}

/-- The error route is the way to `failure`, or declared for `!` and not exhausted. -/
theorem errorRoute_cases (s : Session σ τ) (b : Block) :
    s.errorRoute b = .toFailure ∨
      b.next? Names.error = some (s.errorRoute b) ∧ s.isExhausted (s.errorRoute b) = false := by
  unfold errorRoute
  cases hnext : b.next? Names.error with
  | none => exact .inl rfl
  | some t =>
    dsimp only
    cases hx : s.isExhausted t with
    | true => exact .inl rfl
    | false => exact .inr ⟨rfl, hx⟩

/-- A move takes one of the two routes that every state has, or the transition of its value while
that may be taken. -/
theorem Warrants.route {s : Session σ τ} {m : Move} (h : s.Warrants m) :
    (m.transition = .toFailure ∨ m.transition = .toTerminate) ∨
      ∃ b, s.table.block? m.origin = some b ∧ m.transition ∈ b.transitions ∧
        b.next? m.value = some m.transition ∧ s.isExhausted m.transition = false := by
  have hdeclared : ∀ b, s.table.block? m.origin = some b → b.next? m.value = some m.transition →
      s.isExhausted m.transition = false →
      (m.transition = .toFailure ∨ m.transition = .toTerminate) ∨
        ∃ b, s.table.block? m.origin = some b ∧ m.transition ∈ b.transitions ∧
          b.next? m.value = some m.transition ∧ s.isExhausted m.transition = false := by
    intro b hb hnext hx
    rcases b.next?_eq_some hnext with h | ⟨hmem, -⟩
    · exact .inl (.inr h)
    · exact .inr ⟨b, hb, hmem, hnext, hx⟩
  cases h with
  | value b hb _ _ _ _ hnext hx => exact hdeclared b hb hnext hx
  | error b hb _ _ hvalue _ hroute =>
    rcases s.errorRoute_cases b with h | ⟨hnext, hx⟩
    · exact .inl (.inl (hroute.trans h))
    · rw [← hroute] at hnext hx
      exact hdeclared b hb (hvalue ▸ hnext) hx
  | fallback _ _ hvalue _ hroute =>
    rcases hroute with h | ⟨b, hb, hroute⟩
    · exact .inl (.inl h)
    · rcases s.errorRoute_cases b with h | ⟨hnext, hx⟩
      · exact .inl (.inl (hroute.trans h))
      · rw [← hroute] at hnext hx
        exact hdeclared b hb (hvalue ▸ hnext) hx

/-- A move on a value other than `!` takes the transition of its value. -/
theorem Warrants.next?_eq {s : Session σ τ} {m : Move} {b : Block} (h : s.Warrants m)
    (hvalue : m.value ≠ Names.error) (hb : s.table.block? m.origin = some b) :
    b.next? m.value = some m.transition := by
  cases h with
  | value b' hb' _ _ _ _ hnext _ =>
    rw [hb] at hb'
    cases hb'
    exact hnext
  | error _ _ _ _ herror => exact absurd herror hvalue
  | fallback _ _ herror => exact absurd herror hvalue

theorem Warrants.kind_ne_signal {s : Session σ τ} {m : Move} (h : s.Warrants m) :
    m.kind ≠ .signal := by
  cases h with
  | value _ _ _ hkind | error _ _ _ hkind | fallback hkind => rw [hkind]; decide

end Session

/-- Whether an event is a move along a transition of a block: it leaves the block's state, not on a
signal, on a value that takes the transition. -/
def Event.traverses (b : Block) (e : Transition) : Event → Bool
  | .transition left _ value _ kind _ =>
    left == b.state && kind != .signal && b.next? value == some e
  | .state _ _ _ => false

/-! ## Counts within limits -/

namespace Trace

open Session (Move)

theorem count_insert (tr : Trace) (line n k : Nat) :
    count { tr with counts := tr.counts.insert line n } k =
      if k = line then n else tr.count k := by
  simp only [count, SortedMap.getD, SortedMap.get?_insert]
  split <;> rfl

theorem count_move (now : Instant) (tr : Trace) (m : Move) (k : Nat) :
    (tr.move now m).count k =
      if m.transition.isImplicit = false ∧ k = m.transition.line then tr.count k + 1
      else tr.count k := by
  show count { tr with counts := if m.transition.isImplicit then _ else _ } k = _
  cases m.transition.isImplicit with
  | true => simp [count]
  | false =>
    simp only [Bool.false_eq_true, if_false, true_and, count_insert]
    split
    · next h => rw [h]
    · rfl

/-- Counts are kept for declared transitions only, and within their limits. -/
structure Counted (t : Table) (tr : Trace) : Prop where
  limits : ∀ b ∈ t.blocks, ∀ e ∈ b.transitions, 0 < e.max → tr.count e.line ≤ e.max
  declared : ∀ k ∈ tr.counts.keys, ∃ b ∈ t.blocks, ∃ e ∈ b.transitions, e.line = k

theorem counted_fresh (t : Table) : Counted t .fresh where
  limits _ _ _ _ _ := Nat.zero_le _
  declared := by rintro k ⟨⟩

/-- Taking a count away leaves the others as they are. -/
theorem Counted.erase {t : Table} {tr : Trace} (h : tr.Counted t) (line : Nat) :
    Counted t { tr with counts := tr.counts.erase line } where
  limits b hb e he hmax := by
    refine Nat.le_trans ?_ (h.limits b hb e he hmax)
    simp only [count, SortedMap.getD, SortedMap.get?_erase]
    split
    · exact Nat.zero_le _
    · exact Nat.le_refl _
  declared k hk := by
    refine h.declared k (SortedMap.mem_keys.2 ?_)
    rw [SortedMap.mem_keys, SortedMap.get?_erase] at hk
    split at hk
    · cases hk
    · exact hk

theorem Counted.of_counts {t : Table} {tr tr' : Trace} (h : tr.Counted t)
    (hcounts : tr'.counts = tr.counts) : tr'.Counted t := by
  refine ⟨?_, ?_⟩
  · simpa only [count, hcounts] using h.limits
  · simpa only [hcounts] using h.declared

/-- A warranted move keeps the counts within their limits: the count that grows was below its
limit, and no other declaration has its line. -/
theorem Counted.move {σ τ : Type} {s : Session σ τ} {m : Move} (hwf : s.table.WellFormed)
    (h : s.trace.Counted s.table) (now : Instant) (hm : s.Warrants m) :
    (s.trace.move now m).Counted s.table := by
  rcases hm.route with hroute | ⟨b, hb, hmem, -, hx⟩
  · refine h.of_counts ?_
    show (if m.transition.isImplicit then _ else _) = _
    rw [if_pos (Transition.isImplicit_of_eq hroute)]
  -- the transition is declared, and was not taken as often as it may be
  obtain ⟨hb, -⟩ := hwf.mem_of_block? hb
  refine ⟨fun b' hb' e he hmax => ?_, fun k hk => ?_⟩
  · rw [count_move]
    split
    · next hline =>
      obtain ⟨-, rfl⟩ := hwf.transition_eq_of_line hb' hb he hmem hline.2
      have hopen : ¬ m.transition.max ≤ s.task.count m.transition.line := by
        simpa [Session.isExhausted, Nat.pos_iff_ne_zero.1 hmax] using hx
      rw [Session.count_trace]
      omega
    · exact h.limits b' hb' e he hmax
  · rw [SortedMap.mem_keys] at hk
    change (SortedMap.get? (if m.transition.isImplicit then _ else _) k).isSome at hk
    split at hk
    · exact h.declared k (SortedMap.mem_keys.2 hk)
    · rw [SortedMap.get?_insert] at hk
      split at hk
      · next hline => exact ⟨b, hb, m.transition, hmem, hline.symm⟩
      · exact h.declared k (SortedMap.mem_keys.2 hk)

/-- Whatever turns the trace keeps the counts within their limits. -/
theorem Counted.turns {σ τ : Type} {s : Session σ τ} {tr : Trace} (hwf : s.table.WellFormed)
    (h : s.trace.Counted s.table) (hturn : s.Turns tr) : tr.Counted s.table := by
  cases hturn with
  | same => exact h
  | started | stopped | signalled => exact h.of_counts rfl
  | moved now m allowed => exact h.move hwf now allowed.warrants

/-! ## Counts and recorded moves -/

/-- The count of each transition of a block, those for `!` apart, is the number of recorded moves
along it. -/
def Tallied (t : Table) (tr : Trace) : Prop :=
  ∀ b ∈ t.blocks, ∀ e ∈ b.transitions, e.value ≠ Names.error →
    tr.count e.line = tr.events.countP (Event.traverses b e)

theorem tallied_fresh (t : Table) : Tallied t .fresh :=
  fun _ _ _ _ _ => rfl

/-- Events that are no moves of the table leave the tally as it is. -/
theorem Tallied.append {t : Table} {tr tr' : Trace} {new : List Event} (h : tr.Tallied t)
    (hcounts : tr'.counts = tr.counts) (hevents : tr'.events = tr.events ++ new)
    (hnew : ∀ b e, ∀ ev ∈ new, Event.traverses b e ev = false) : tr'.Tallied t := by
  intro b hb e he hvalue
  have hzero : new.countP (Event.traverses b e) = 0 :=
    List.countP_eq_zero.2 fun ev hev => by simp [hnew b e ev hev]
  rw [hevents, List.countP_append, hzero, Nat.add_zero, ← h b hb e he hvalue]
  simp only [count, hcounts]

/-- A warranted move raises the count of a transition exactly if it is recorded as a move along
it. -/
theorem Tallied.move {σ τ : Type} {s : Session σ τ} {m : Move} (hwf : s.table.WellFormed)
    (h : s.trace.Tallied s.table) (now : Instant) (hm : s.Warrants m) :
    (s.trace.move now m).Tallied s.table := by
  intro b hb e he hvalue
  have hcounted : Event.traverses b e
      (.transition m.origin m.method m.value m.requested m.kind now) = true ↔
        m.transition.isImplicit = false ∧ e.line = m.transition.line := by
    simp only [Event.traverses, Bool.and_eq_true, beq_iff_eq, bne_iff_ne]
    constructor
    · rintro ⟨⟨horigin, -⟩, hnext⟩
      -- `!` takes the transition that is declared for it, and `e` is not
      have hne : m.value ≠ Names.error := by
        intro herror
        rcases b.next?_eq_some hnext with hroute | ⟨-, hiff⟩
        · exact absurd (hwf.line_pos hb he) (by rw [hroute]; decide)
        · exact hvalue (hiff.2 herror)
      have hblock : s.table.block? m.origin = some b := horigin ▸ hwf.block?_of_mem hb
      -- the value takes one transition in the block, so the move went along `e`
      have htaken := hm.next?_eq hne hblock
      rw [hnext] at htaken
      cases htaken
      refine ⟨?_, rfl⟩
      simpa [Transition.isImplicit] using Nat.pos_iff_ne_zero.1 (hwf.line_pos hb he)
    · rintro ⟨hdeclared, hline⟩
      rcases hm.route with hroute | ⟨b', hb', hmem, hnext, -⟩
      · rw [Transition.isImplicit_of_eq hroute] at hdeclared
        cases hdeclared
      · -- a line declares one transition, so the move left the state of `b` along `e`
        obtain ⟨hb'mem, hstate⟩ := hwf.mem_of_block? hb'
        obtain ⟨rfl, rfl⟩ := hwf.transition_eq_of_line hb hb'mem he hmem hline
        exact ⟨⟨hstate.symm, hm.kind_ne_signal⟩, hnext⟩
  have hstate : Event.traverses b e (.state m.transition.target m.transition.exec now) = false :=
    rfl
  rw [count_move, move_events, List.countP_append, List.countP_cons, List.countP_singleton,
    ← h b hb e he hvalue, hstate]
  simp only [hcounted]
  split
  · rfl
  · rfl

/-- Whatever turns the trace keeps the tally. -/
theorem Tallied.turns {σ τ : Type} {s : Session σ τ} {tr : Trace} (hwf : s.table.WellFormed)
    (h : s.trace.Tallied s.table) (hturn : s.Turns tr) : tr.Tallied s.table := by
  cases hturn with
  | same => exact h
  | started now state => exact h.append rfl rfl (by simp [Event.traverses])
  | stopped => exact h.append rfl (List.append_nil _).symm fun _ _ _ hev => by cases hev
  | moved now m allowed => exact h.move hwf now allowed.warrants
  | signalled now => exact h.append rfl (List.append_assoc _ _ _) (by simp [Event.traverses])

end Trace

/-! ## Whole courses -/

namespace Session

variable {σ τ : Type} [Supply τ]

theorem counted_course {s : Session σ τ} (hwf : s.table.WellFormed) (h : s.trace.Counted s.table)
    (as : List (Action τ)) : (s.course as).trace.Counted s.table := by
  refine trace_induction h (fun s' tr htable hs hturn => ?_) fun tr line _ hs => hs.erase line
  rw [← htable] at hwf hs ⊢
  exact hs.turns hwf hturn

theorem tallied_course {s : Session σ τ} (hwf : s.table.WellFormed) (h : s.trace.Tallied s.table)
    {as : List (Action τ)} (has : ∀ a ∈ as, a.clearsCount = false) :
    (s.course as).trace.Tallied s.table := by
  refine trace_induction h (fun s' tr htable hs hturn => ?_) ?_
  · rw [← htable] at hwf hs ⊢
    exact hs.turns hwf hturn
  · rintro tr line ⟨a, ha, hclear⟩
    rw [has a ha] at hclear
    cases hclear

/-- Along any course of a new task, no transition is counted beyond its limit, and counts are kept
under the lines of declarations only. While no count is cleared, the count of a transition, unless
it is declared for `!`, is the number of recorded moves along it, so that it is taken no more often
than it may be. -/
theorem counts_within_limits {source : String} {t : Table} (hcompile : Table.compile source = .ok t)
    {u : Setup σ τ} (htable : u.table = t) (hnew : u.stored = none) {now : Instant}
    {s : Session σ τ} (hbuild : (u.build now).2 = .ok s) (as : List (Action τ)) :
    (∀ b ∈ t.blocks, ∀ e ∈ b.transitions, 0 < e.max →
      (s.course as).task.count e.line ≤ e.max) ∧
    (∀ line ∈ (s.course as).task.counts.keys,
      line ≠ 0 ∧ ∃ b ∈ t.blocks, ∃ e ∈ b.transitions, e.line = line) ∧
    ((∀ a ∈ as, a.clearsCount = false) →
      ∀ b ∈ t.blocks, ∀ e ∈ b.transitions, e.value ≠ Names.error →
        (s.course as).task.count e.line =
            (s.course as).task.recording.events.countP (Event.traverses b e) ∧
          (0 < e.max →
            (s.course as).task.recording.events.countP (Event.traverses b e) ≤ e.max)) := by
  obtain ⟨rfl, -⟩ := u.eq_newSession hnew hbuild
  subst htable
  have hwf : u.table.WellFormed := Table.wellFormed_of_compile hcompile
  have hcounted := counted_course (s := u.newSession now) hwf (Trace.counted_fresh _) as
  refine ⟨hcounted.limits, fun line hline => ?_, fun has b hb e he hvalue => ?_⟩
  · obtain ⟨b, hb, e, he, rfl⟩ := hcounted.declared line hline
    exact ⟨Nat.pos_iff_ne_zero.1 (hwf.line_pos hb he), b, hb, e, he, rfl⟩
  · have htallied :=
      tallied_course (s := u.newSession now) hwf (Trace.tallied_fresh _) has b hb e he hvalue
    exact ⟨htallied, fun hmax => htallied ▸ hcounted.limits b hb e he hmax⟩

/-! ## A task that polls -/

/-- A table whose task may poll twice before it has to be done. -/
def pollSource : String :=
  "poll:check \x7b\n again poll max=2\n done finish\n\x7d\n"

/-- The table of `pollSource`. -/
def pollTable : Table where
  blocks :=
    [{ state := "poll"
       method := "check"
       transitions :=
        [{ value := "again", target := "poll", max := 2, line := 2 },
          { value := "done", target := "finish", line := 3 }]
       line := 1 }]
  index := .ofList [("poll", 0)]
  sourceHash := Digest.sha256 pollSource

theorem compile_pollSource : Table.compile pollSource = .ok pollTable :=
  Table.compile_of_foldlM (u := { table := { pollTable with sourceHash := "" } }) rfl rfl

/-- A new task of `pollTable` whose selector always asks to poll again. -/
def pollAgain : Setup Unit ScriptedSupply where
  table := pollTable
  handler :=
    { Handler.none with
      catalog := { states := ["poll"], selectors := ["check"] }
      select := fun m _ _ d => (m, d, .ok "again") }
  memory := ()
  taskId := "poll"

/-- Three steps of a task that always asks to poll again: the third is refused. -/
theorem counts_within_limits_pollAgain :
    (pollAgain.build ⟨0, 0⟩).2 = .ok (pollAgain.newSession ⟨0, 0⟩) ∧
      ((pollAgain.newSession ⟨0, 0⟩).course
        (List.replicate 3 (.step .steady ⟨0, 0⟩))).task.count 2 = 2 ∧
      ∀ b ∈ pollTable.blocks, ∀ e ∈ b.transitions, 0 < e.max →
        ((pollAgain.newSession ⟨0, 0⟩).course
          (List.replicate 3 (.step .steady ⟨0, 0⟩))).task.count e.line ≤ e.max := by
  have hbuild : (pollAgain.build ⟨0, 0⟩).2 = .ok (pollAgain.newSession ⟨0, 0⟩) := rfl
  exact ⟨hbuild, rfl, (counts_within_limits compile_pollSource rfl rfl hbuild _).1⟩

end Session
end TaskTable
