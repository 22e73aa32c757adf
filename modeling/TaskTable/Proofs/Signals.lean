import TaskTable.Signals

/-!
# Queues of signals

What waits for a task is a list: sending appends to it and consuming takes one signal off it, and
neither touches what waits for other tasks. `Sound` says that the signals can be told apart by their
numbers, which sending and consuming keep.
-/

namespace TaskTable
namespace SignalQueue

/-! ## What waits after each operation -/

theorem pending_send (q : SignalQueue) (task : String) (reason : Option String) (other : String) :
    (q.send task reason).pending other =
      if other = task then q.pending task ++ [⟨q.nextId, reason⟩] else q.pending other := by
  simp only [pending, send, SortedMap.getD, SortedMap.get?_insert]
  split <;> rfl

theorem pending_consume (q : SignalQueue) (task : String) (id : Nat) (other : String) :
    (q.consume task id).pending other =
      if other = task then (q.pending task).filter (·.id ≠ id) else q.pending other := by
  unfold consume
  cases hwaiting : q.waiting.get? task with
  | none =>
    have hnone : q.pending task = [] := by rw [pending, SortedMap.getD, hwaiting]; rfl
    dsimp only
    split
    · next h => rw [h, hnone]; rfl
    · rfl
  | some signals =>
    have hsome : q.pending task = signals := by rw [pending, SortedMap.getD, hwaiting]; rfl
    rw [hsome]
    simp only [pending, SortedMap.getD, SortedMap.get?_insert]
    split <;> rfl

@[simp] theorem nextId_consume (q : SignalQueue) (task : String) (id : Nat) :
    (q.consume task id).nextId = q.nextId := by
  unfold consume
  split <;> rfl

/-! ## Several signals -/

/-- The signals that sends come to, each with its task, if the first of them gets the number
`next`. -/
def posted (next : Nat) : List (String × Option String) → List (String × Signal)
  | [] => []
  | (task, reason) :: rest => (task, ⟨next, reason⟩) :: posted (next + 1) rest

/-- The signals among them that are for a task. -/
def postedTo (next : Nat) (sends : List (String × Option String)) (task : String) : List Signal :=
  ((posted next sends).filter (·.1 = task)).map (·.2)

theorem postedTo_cons (next : Nat) (other : String) (reason : Option String)
    (rest : List (String × Option String)) (task : String) :
    postedTo next ((other, reason) :: rest) task =
      (if task = other then [⟨next, reason⟩] else []) ++ postedTo (next + 1) rest task := by
  unfold postedTo
  rw [posted, List.filter_cons]
  by_cases h : task = other
  · simp [h]
  · simp [h, Ne.symm h]

theorem postedTo_append (next : Nat) (xs ys : List (String × Option String)) (task : String) :
    postedTo next (xs ++ ys) task =
      postedTo next xs task ++ postedTo (next + xs.length) ys task := by
  induction xs generalizing next with
  | nil => rfl
  | cons x xs ih =>
    have hnext : next + 1 + xs.length = next + (xs.length + 1) := by omega
    rw [List.cons_append, postedTo_cons, postedTo_cons, ih, List.append_assoc, hnext]
    rfl

/-- Signals are numbered upwards. -/
theorem le_id_of_mem_postedTo {next : Nat} {sends : List (String × Option String)} {task : String}
    {x : Signal} (h : x ∈ postedTo next sends task) : next ≤ x.id := by
  induction sends generalizing next with
  | nil => cases h
  | cons y rest ih =>
    rw [postedTo_cons] at h
    rcases List.mem_append.1 h with h | h
    · split at h
      · cases List.mem_singleton.1 h
        exact Nat.le_refl next
      · cases h
    · exact Nat.le_of_succ_le (ih h)

theorem sendAll_append (q : SignalQueue) (xs ys : List (String × Option String)) :
    q.sendAll (xs ++ ys) = (q.sendAll xs).sendAll ys :=
  List.foldl_append

@[simp] theorem nextId_sendAll (q : SignalQueue) (sends : List (String × Option String)) :
    (q.sendAll sends).nextId = q.nextId + sends.length := by
  induction sends generalizing q with
  | nil => rfl
  | cons x rest ih =>
    show ((q.send x.1 x.2).sendAll rest).nextId = _
    rw [ih]
    simp only [send, List.length_cons]
    omega

theorem pending_sendAll (q : SignalQueue) (sends : List (String × Option String)) (task : String) :
    (q.sendAll sends).pending task = q.pending task ++ postedTo q.nextId sends task := by
  induction sends generalizing q with
  | nil => exact (List.append_nil _).symm
  | cons x rest ih =>
    obtain ⟨other, reason⟩ := x
    show ((q.send other reason).sendAll rest).pending task = _
    rw [ih, pending_send, postedTo_cons]
    split
    · next h => rw [h, List.append_assoc]; rfl
    · rfl

/-! ## Sound queues -/

/-- No two signals for a task have the same number, and no signal has one yet to be given out. -/
structure Sound (q : SignalQueue) : Prop where
  distinct : ∀ task, ((q.pending task).map Signal.id).Nodup
  numbered : ∀ task, ∀ x ∈ q.pending task, x.id < q.nextId

theorem sound_empty : Sound {} :=
  ⟨fun _ => .nil, fun _ _ hx => by cases hx⟩

namespace Sound

variable {q : SignalQueue}

theorem send (h : q.Sound) (task : String) (reason : Option String) :
    (q.send task reason).Sound where
  distinct other := by
    rw [pending_send]
    split
    · have hfresh : q.nextId ∉ (q.pending task).map Signal.id := by
        intro hmem
        obtain ⟨x, hx, hid⟩ := List.mem_map.1 hmem
        exact absurd hid (Nat.ne_of_lt (h.numbered task x hx))
      rw [List.map_append]
      exact List.nodup_append.2 ⟨h.distinct task, by simp, by simpa using hfresh⟩
    · exact h.distinct other
  numbered other x hx := by
    show x.id < q.nextId + 1
    rw [pending_send] at hx
    split at hx
    · rcases List.mem_append.1 hx with hx | hx
      · exact Nat.lt_succ_of_lt (h.numbered task x hx)
      · rw [List.mem_singleton.1 hx]
        exact Nat.lt_succ_self _
    · exact Nat.lt_succ_of_lt (h.numbered other x hx)

theorem sendAll (h : q.Sound) (sends : List (String × Option String)) :
    (q.sendAll sends).Sound := by
  induction sends generalizing q with
  | nil => exact h
  | cons x rest ih => exact ih (h.send x.1 x.2)

theorem consume (h : q.Sound) (task : String) (id : Nat) : (q.consume task id).Sound where
  distinct other := by
    rw [pending_consume]
    split
    · exact (List.filter_sublist.map Signal.id).nodup (h.distinct task)
    · exact h.distinct other
  numbered other x hx := by
    rw [nextId_consume]
    rw [pending_consume] at hx
    split at hx
    · exact h.numbered task x (List.mem_filter.1 hx |>.1)
    · exact h.numbered other x hx

/-- Consuming the oldest signal takes it off and leaves the rest. -/
theorem pending_eq_cons (h : q.Sound) {task : String} {x : Signal}
    (holdest : q.oldest? task = some x) :
    q.pending task = x :: (q.consume task x.id).pending task := by
  have hdistinct := h.distinct task
  unfold oldest? at holdest
  rw [pending_consume, if_pos rfl]
  cases hpending : q.pending task with
  | nil => rw [hpending] at holdest; cases holdest
  | cons y rest =>
    rw [hpending] at holdest hdistinct
    cases holdest
    -- no other signal has its number, so nothing else is taken off
    have hothers : ∀ z ∈ rest, z.id ≠ x.id := by
      intro z hz hid
      exact (List.nodup_cons.1 hdistinct).1 (hid ▸ List.mem_map_of_mem hz)
    have hkept : rest.filter (·.id ≠ x.id) = rest :=
      List.filter_eq_self.2 fun z hz => by simpa using hothers z hz
    rw [List.filter_cons, if_neg (by simp), hkept]

/-- Signals that are sent between the look for a signal and its consumption are kept. -/
theorem pending_consume_sendAll (h : q.Sound) {task : String} {x : Signal}
    (holdest : q.oldest? task = some x) (sends : List (String × Option String)) (other : String) :
    ((q.sendAll sends).consume task x.id).pending other =
      ((q.consume task x.id).sendAll sends).pending other := by
  have hx : x.id < q.nextId := h.numbered task x (List.mem_of_mem_head? holdest)
  -- the numbers of later signals are greater
  have hkept : (postedTo q.nextId sends task).filter (·.id ≠ x.id) =
      postedTo q.nextId sends task := by
    refine List.filter_eq_self.2 fun y hy => ?_
    have hle := le_id_of_mem_postedTo hy
    have hne : y.id ≠ x.id := by omega
    simpa using hne
  rw [pending_consume, pending_sendAll, pending_sendAll, pending_sendAll, pending_consume,
    nextId_consume]
  split
  · next heq => rw [List.filter_append, hkept, heq]
  · rfl

end Sound
end SignalQueue
end TaskTable
