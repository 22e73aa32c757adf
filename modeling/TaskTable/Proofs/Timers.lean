import Mathlib.Algebra.BigOperators.Group.List.Basic
import Mathlib.Algebra.GroupWithZero.Nat
import Mathlib.Algebra.Ring.Int.Defs
import Mathlib.Data.List.Induction
import TaskTable.Timers

/-!
# What timers add up to

Timers are told when to switch and when to stop, and add up what lies between. A history of such
calls says by itself how long each timer was the one engaged last (`timeOf`); the totals together
with the interval that runs are that time (`totals_partition_time`), so that no interval is lost or
charged twice. `start_delay` stands apart from the others: it is set down once and never charged.
-/

namespace TaskTable

/-! ## Sums over maps -/

namespace SortedMap

variable {κ : Type} [LE κ] [LT κ] [Std.IsLinearOrder κ] [Std.LawfulOrderLT κ] [DecidableLT κ]
  [DecidableEq κ]

/-- The sum of the values whose keys `q` picks. -/
def sumOver (q : κ → Bool) (m : SortedMap κ Nat) : Nat :=
  ((m.entries.filter fun e => q e.1).map (·.2)).sum

omit [Std.IsLinearOrder κ] [DecidableLT κ] in
/-- A key below all others is not among them. -/
theorem lookupEntry_eq_none_of_lt {α : Type} {k : κ} {l : List (κ × α)} (h : ∀ e ∈ l, k < e.1) :
    lookupEntry k l = none := by
  rw [← Option.not_isSome_iff_eq_none, lookupEntry_isSome]
  intro hmem
  obtain ⟨e, he, rfl⟩ := List.mem_map.1 hmem
  exact Std.lt_irrefl (h e he)

/-- A value that is put into a map takes the place of the one that was there in every sum. -/
theorem sumOver_insert (q : κ → Bool) (m : SortedMap κ Nat) (k : κ) (a : Nat) :
    (m.insert k a).sumOver q + (if q k then m.getD k 0 else 0) =
      m.sumOver q + if q k then a else 0 := by
  obtain ⟨l, hl⟩ := m
  simp only [sumOver, insert, getD, get?]
  induction l with
  | nil => cases hq : q k <;> simp [insertEntry, lookupEntry, hq]
  | cons hd tl ih =>
    obtain ⟨k', a'⟩ := hd
    obtain ⟨hlt, htl⟩ := List.pairwise_cons.1 hl
    rw [insertEntry, lookupEntry]
    by_cases hk : k = k'
    · -- the value of the key is replaced
      subst hk
      rw [if_neg Std.lt_irrefl, if_pos rfl, if_pos rfl]
      cases hq : q k <;> simp [hq]
      omega
    · rw [if_neg hk, if_neg hk]
      split
      · -- the key comes in front of all others
        next hbefore =>
        rw [lookupEntry_eq_none_of_lt fun e he => Std.lt_trans hbefore (hlt e he)]
        cases hq : q k <;> simp [hq]
        omega
      · have hrest := ih htl
        cases hq' : q k' <;> simp only [List.filter_cons, hq', Bool.false_eq_true, if_true, if_false,
          List.map_cons, List.sum_cons]
        · exact hrest
        · omega

omit [Std.IsLinearOrder κ] [DecidableLT κ] in
/-- A sum over one key is the value there. -/
theorem sumOver_beq (m : SortedMap κ Nat) (k : κ) : m.sumOver (· == k) = m.getD k 0 := by
  obtain ⟨l, hl⟩ := m
  simp only [sumOver, getD, get?]
  induction l with
  | nil => rfl
  | cons hd tl ih =>
    obtain ⟨k', a⟩ := hd
    obtain ⟨hlt, htl⟩ := List.pairwise_cons.1 hl
    have hrest := ih htl
    rw [lookupEntry]
    by_cases hk : k = k'
    · subst hk
      rw [lookupEntry_eq_none_of_lt hlt] at hrest
      simpa using hrest
    · have hk' : (k' == k) = false := by simpa using fun h => hk h.symm
      rw [if_neg hk, List.filter_cons, hk']
      exact hrest

end SortedMap

/-! ## Clock readings -/

namespace Instant

/-- Between clock readings passes the difference of their nanoseconds. -/
theorem elapsed_ofNanos (since now : Int) : elapsed (ofNanos since) (ofNanos now) = now - since := by
  have hplain : ∀ ns : Int, (ofNanos ns).isLeap = false := by
    intro ns
    refine decide_eq_false ?_
    simp only [ofNanos, nanosPerSecond]
    omega
  simp only [elapsed, hplain, Bool.false_eq_true, false_and, if_false]
  simp only [ofNanos, nanosPerSecond]
  omega

theorem elapsedMillis_ofNanos (since now : Int) :
    (ofNanos since).elapsedMillis (ofMillis now) = ((now * 1000000 - since) / 1000000).toNat := by
  rw [elapsedMillis, ofMillis, elapsed_ofNanos]

theorem elapsedMillis_ofMillis (since now : Int) :
    (ofMillis since).elapsedMillis (ofMillis now) = (now - since).toNat := by
  rw [ofMillis, elapsedMillis_ofNanos]
  omega

end Instant

namespace Timers

/-! ## Histories -/

/-- Something that is done to timers. Times are whole milliseconds since the start of 1970. -/
inductive Call
  | engage (name : String) (time : Int) (createdAt : Instant)
  | stop (time : Int)

namespace Call

/-- When the call is made. -/
def time : Call → Int
  | engage _ time _ | stop time => time

/-- The timer that is engaged from the call on. -/
def engaged : Call → Option String
  | engage name _ _ => some name
  | stop _ => none

/-- The delay that the call sets down if it is the first to engage the `user` timer. -/
def delay : Call → Option Nat
  | engage name time createdAt =>
    if name = Names.userTimer then some (createdAt.elapsedMillis (.ofMillis time)) else none
  | stop _ => none

/-- The timers after a call. -/
def apply (t : Timers) : Call → Timers
  | engage name time createdAt => t.engage name (.ofMillis time) createdAt
  | stop time => t.stop (.ofMillis time)

end Call

/-- The timers after a history of calls, from none on. -/
def after (calls : List Call) : Timers :=
  calls.foldl Call.apply {}

/-- The timer engaged last, if it has not been stopped since. -/
def engagedAfter (calls : List Call) : Option String :=
  calls.getLast?.bind Call.engaged

/-- What lies between the calls: from each to the next, and from the last to `now`, the timer that
is engaged and the length. -/
def gaps : List Call → Int → List (Option String × Int)
  | [], _ => []
  | [c], now => [(c.engaged, now - c.time)]
  | c :: d :: rest, now => (c.engaged, d.time - c.time) :: gaps (d :: rest) now

/-- How long up to `now` a timer that `q` picks was the one engaged last and not stopped since. -/
def timeOf (q : String → Bool) (calls : List Call) (now : Int) : Int :=
  (((gaps calls now).filter fun g => g.1.any q).map (·.2)).sum

/-- How long the timer that runs has been running, if `q` picks it. -/
def running (q : String → Bool) (t : Timers) (now : Int) : Nat :=
  match t.active with
  | some a => if q a.name then a.since.elapsedMillis (.ofMillis now) else 0
  | none => 0

variable {calls : List Call} {c : Call} {now : Int} {q : String → Bool}

theorem after_concat (calls : List Call) (c : Call) :
    after (calls ++ [c]) = c.apply (after calls) := by
  rw [after, List.foldl_append]
  rfl

theorem gaps_concat (calls : List Call) (c : Call) (now : Int) :
    gaps (calls ++ [c]) now = gaps calls c.time ++ [(c.engaged, now - c.time)] := by
  induction calls with
  | nil => rfl
  | cons d rest ih =>
    cases rest with
    | nil => rfl
    | cons e rest =>
      simp only [List.cons_append, gaps] at ih ⊢
      rw [ih]

/-- One more call ends the gap before it and opens another. -/
theorem timeOf_concat (q : String → Bool) (calls : List Call) (c : Call) (now : Int) :
    timeOf q (calls ++ [c]) now =
      timeOf q calls c.time + if c.engaged.any q then now - c.time else 0 := by
  rw [timeOf, gaps_concat, List.filter_append, List.map_append, List.sum_append]
  cases hq : c.engaged.any q <;> simp [timeOf, hq]

theorem timeOf_engage (q : String → Bool) (calls : List Call) (name : String) (time : Int)
    (createdAt : Instant) (now : Int) :
    timeOf q (calls ++ [.engage name time createdAt]) now =
      timeOf q calls time + if q name then now - time else 0 :=
  timeOf_concat q calls _ now

theorem timeOf_stop (q : String → Bool) (calls : List Call) (time now : Int) :
    timeOf q (calls ++ [.stop time]) now = timeOf q calls time := by
  rw [timeOf_concat]
  exact Int.add_zero _

/-! ## What a call does -/

theorem sumOver_charge (q : String → Bool) (totals : SortedMap String Nat) (name : String)
    (ms : Nat) :
    (charge totals name ms).sumOver q = totals.sumOver q + if q name then ms else 0 := by
  have hinsert := totals.sumOver_insert q name (totals.getD name 0 + ms)
  rw [charge]
  split at hinsert
  · next hname =>
    rw [if_pos hname]
    omega
  · next hname =>
    rw [if_neg hname]
    omega

/-- Stopping puts what has run into the totals. -/
theorem sumOver_stop (q : String → Bool) (t : Timers) (now : Int) :
    (t.stop (.ofMillis now)).totals.sumOver q = t.totals.sumOver q + t.running q now := by
  unfold stop running
  cases t.active with
  | none => rfl
  | some a => exact sumOver_charge q t.totals a.name _

/-- A timer that is started changes no sum that leaves `start_delay` out. -/
theorem sumOver_start (hq : q Names.startDelay = false) (t : Timers) (name : String)
    (time createdAt : Instant) :
    (engage.start name time createdAt t).totals.sumOver q = t.totals.sumOver q := by
  unfold engage.start
  dsimp only
  split
  · have hinsert := t.totals.sumOver_insert q Names.startDelay (createdAt.elapsedMillis time)
    rwa [hq] at hinsert
  · rfl

theorem active_engage (t : Timers) (name : String) (now createdAt : Instant) :
    (t.engage name now createdAt).active.map RunningTimer.name = some name := by
  unfold engage
  split
  · next a ha =>
    split
    · next hname => rw [ha, Option.map_some, hname]
    · rfl
  · rfl

theorem active_stop (t : Timers) (now : Instant) : (t.stop now).active = none := by
  unfold stop
  split
  · next h => exact h
  · rfl

theorem get?_stop {t : Timers} (h : ∀ a, t.active = some a → a.name ≠ Names.startDelay)
    (time : Instant) :
    (t.stop time).totals.get? Names.startDelay = t.totals.get? Names.startDelay := by
  unfold stop
  cases hactive : t.active with
  | none => rfl
  | some a => exact SortedMap.get?_insert_of_ne _ (h a hactive).symm _

/-- A timer goes on where it is engaged again; else the one before it is stopped first. -/
theorem engage_eq (t : Timers) (name : String) (time createdAt : Instant) :
    t.engage name time createdAt =
      if t.active.map RunningTimer.name = some name then t
      else engage.start name time createdAt (t.stop time) := by
  unfold engage
  cases hactive : t.active with
  | none => simp [stop, hactive]
  | some a => simp

/-! ## What a history comes to -/

/-- The timer that runs is the one engaged last and not stopped since. -/
theorem active_after (calls : List Call) :
    (after calls).active.map RunningTimer.name = engagedAfter calls := by
  induction calls using List.reverseRecOn with
  | nil => rfl
  | append_singleton calls c _ =>
    rw [after_concat, engagedAfter, List.getLast?_concat]
    cases c with
    | engage name time createdAt => exact active_engage _ _ _ _
    | stop time =>
      rw [Call.apply, active_stop]
      rfl

/-- The timer that runs does so since one of the calls. -/
theorem since_after {a : RunningTimer} (h : (after calls).active = some a) :
    ∃ c ∈ calls, a.since = .ofMillis c.time := by
  induction calls using List.reverseRecOn generalizing a with
  | nil => cases h
  | append_singleton calls c ih =>
    rw [after_concat] at h
    have hkept : (after calls).active = some a → ∃ d ∈ calls ++ [c], a.since = .ofMillis d.time := by
      intro hactive
      obtain ⟨d, hd, hsince⟩ := ih hactive
      exact ⟨d, List.mem_append_left _ hd, hsince⟩
    cases c with
    | engage name time createdAt =>
      rw [Call.apply, engage_eq] at h
      split at h
      · exact hkept h
      · cases h
        exact ⟨_, List.mem_append_right _ List.mem_cons_self, rfl⟩
    | stop time =>
      rw [Call.apply, stop] at h
      split at h
      · exact hkept h
      · cases h

/-- What runs grows by the time that passes. -/
theorem running_add {t : Timers} {a : RunningTimer} {since time : Int} (hactive : t.active = some a)
    (hsince : a.since = .ofMillis since) (hbefore : since ≤ time) (hnow : time ≤ now) :
    (t.running q now : Int) = t.running q time + if q a.name then now - time else 0 := by
  simp only [running, hactive, hsince, Instant.elapsedMillis_ofMillis]
  split <;> omega

/-- The totals that `q` picks and what runs of them are the time in which one of them was the timer
engaged last. -/
theorem sumOver_after (hq : q Names.startDelay = false)
    (htimes : (calls.map Call.time ++ [now]).Pairwise (· ≤ ·)) :
    ((after calls).totals.sumOver q + (after calls).running q now : Int) = timeOf q calls now := by
  induction calls using List.reverseRecOn generalizing now with
  | nil => rfl
  | append_singleton calls c ih =>
    rw [List.map_append, List.map_singleton, List.pairwise_append] at htimes
    obtain ⟨hcalls, -, hlast⟩ := htimes
    have hnow : c.time ≤ now := hlast _ (by simp) _ (by simp)
    have hbefore := ih hcalls
    have hstop := sumOver_stop q (after calls) c.time
    rw [after_concat]
    cases c with
    | stop time =>
      have hnone : ((after calls).stop (.ofMillis time)).running q now = 0 := by
        rw [running, active_stop]
      simp only [Call.time] at hbefore hstop
      rw [Call.apply, hnone, timeOf_stop, ← hbefore, hstop]
      omega
    | engage name time createdAt =>
      simp only [Call.time] at hcalls hnow hbefore hstop
      rw [Call.apply, engage_eq, timeOf_engage, ← hbefore]
      split
      · -- the timer runs already, since a call before this one
        next hsame =>
        obtain ⟨a, hactive, rfl⟩ := Option.map_eq_some_iff.1 hsame
        obtain ⟨d, hd, hsince⟩ := since_after hactive
        have hle : d.time ≤ time :=
          (List.pairwise_append.1 hcalls).2.2 _ (List.mem_map_of_mem hd) _ (by simp)
        rw [running_add hactive hsince hle hnow, Int.add_assoc]
      · have hrunning : (engage.start name (.ofMillis time) createdAt
            ((after calls).stop (.ofMillis time))).running q now =
              if q name then (now - time).toNat else 0 := by
          rw [← Instant.elapsedMillis_ofMillis]
          rfl
        rw [sumOver_start hq, hstop, hrunning]
        split <;> omega

/-- Only whether `q` picks the timers that were engaged counts. -/
theorem timeOf_congr {q q' : String → Bool} (h : ∀ c ∈ calls, c.engaged.any q = c.engaged.any q') :
    timeOf q calls now = timeOf q' calls now := by
  induction calls using List.reverseRecOn generalizing now with
  | nil => rfl
  | append_singleton calls c ih =>
    rw [timeOf_concat, timeOf_concat, ih fun d hd => h d (List.mem_append_left _ hd),
      h c (List.mem_append_right _ List.mem_cons_self)]

/-- The timer that runs is one of those that were engaged. -/
theorem engaged_of_active {a : RunningTimer} (h : (after calls).active = some a) :
    ∃ c ∈ calls, c.engaged = some a.name := by
  have hlast : engagedAfter calls = some a.name := by
    rw [← active_after, h, Option.map_some]
  obtain ⟨c, hc, hengaged⟩ := Option.bind_eq_some_iff.1 hlast
  exact ⟨c, List.mem_of_getLast? hc, hengaged⟩

/-- The first call that engages the `user` timer fixes `start_delay`. -/
theorem startDelay_after (hnames : ∀ c ∈ calls, c.engaged ≠ some Names.startDelay) :
    (after calls).totals.get? Names.startDelay = calls.findSome? Call.delay := by
  induction calls using List.reverseRecOn with
  | nil => rfl
  | append_singleton calls c ih =>
    have hbefore := ih fun d hd => hnames d (List.mem_append_left _ hd)
    -- the timer that is stopped is one of those that were engaged
    have hstop := get?_stop (t := after calls) fun a ha hname => by
      obtain ⟨d, hd, hengaged⟩ := engaged_of_active ha
      exact hnames d (List.mem_append_left _ hd) (hname ▸ hengaged)
    rw [after_concat, List.findSome?_append, ← hbefore, List.findSome?_singleton]
    cases c with
    | stop time =>
      rw [Call.apply, hstop]
      simp [Call.delay]
    | engage name time createdAt =>
      rw [Call.apply, engage_eq]
      split
      · -- if the timer that goes on is `user`, it has been engaged before
        next hsame =>
        by_cases hname : name = Names.userTimer
        · obtain ⟨a, hactive, ha⟩ := Option.map_eq_some_iff.1 hsame
          obtain ⟨d, hd, hengaged⟩ := engaged_of_active hactive
          have hdelay : (calls.findSome? Call.delay).isSome = true := by
            rw [List.findSome?_isSome_iff]
            refine ⟨d, hd, ?_⟩
            cases d with
            | stop => cases hengaged
            | engage other =>
              cases hengaged
              simp [Call.delay, ha, hname]
          rw [hbefore, Option.or_of_isSome hdelay]
        · simp [Call.delay, hname]
      · unfold engage.start
        simp only [SortedMap.contains, hstop, Call.delay]
        by_cases hname : name = Names.userTimer
        · cases hget : (after calls).totals.get? Names.startDelay with
          | none => simp [hname]
          | some ms => simp [hname, hstop, hget]
        · simp [hname, hstop]

/-- Timers partition the time. At calls of a clock that never goes back, none of which engages a
timer of the name `start_delay`, the total of each other name and what runs of it are the time in
which it was the timer engaged last; these totals together are all the time in which a timer was
engaged. Engaging the timer that is engaged changes nothing. `start_delay` is the time from the
creation to the first call that engages `user`, and nothing follows on it. -/
theorem totals_partition_time (hnames : ∀ c ∈ calls, c.engaged ≠ some Names.startDelay)
    (htimes : (calls.map Call.time ++ [now]).Pairwise (· ≤ ·)) :
    (∀ n, n ≠ Names.startDelay →
      ((after calls).totals.getD n 0 + (after calls).running (· == n) now : Int) =
        timeOf (· == n) calls now) ∧
    ((after calls).totals.sumOver (· != Names.startDelay) +
        (after calls).running (fun _ => true) now : Int) = timeOf (fun _ => true) calls now ∧
    (∀ name time createdAt, engagedAfter calls = some name →
      after (calls ++ [.engage name time createdAt]) = after calls) ∧
    (after calls).totals.get? Names.startDelay = calls.findSome? Call.delay ∧
    ∀ created time : Int, (Instant.ofNanos created).elapsedMillis (.ofMillis time) =
      ((time * 1000000 - created) / 1000000).toNat := by
  refine ⟨fun n hn => ?_, ?_, fun name time createdAt hengaged => ?_, startDelay_after hnames,
    Instant.elapsedMillis_ofNanos⟩
  · rw [← SortedMap.sumOver_beq]
    exact sumOver_after (by simpa using Ne.symm hn) htimes
  · have hname : ∀ c ∈ calls, ∀ n, c.engaged = some n → (n != Names.startDelay) = true := by
      intro c hc n hn
      have hne : n ≠ Names.startDelay := by
        rintro rfl
        exact hnames c hc hn
      simpa using hne
    have hrunning : (after calls).running (· != Names.startDelay) now =
        (after calls).running (fun _ => true) now := by
      unfold running
      cases hactive : (after calls).active with
      | none => rfl
      | some a =>
        obtain ⟨c, hc, hengaged⟩ := engaged_of_active hactive
        simp only [hname c hc _ hengaged]
    have htime : timeOf (· != Names.startDelay) calls now = timeOf (fun _ => true) calls now := by
      refine timeOf_congr fun c hc => ?_
      cases hengaged : c.engaged with
      | none => rfl
      | some n => exact hname c hc n hengaged
    rw [← hrunning, ← htime]
    exact sumOver_after (by simp) htimes
  · rw [after_concat, Call.apply, engage_eq, if_pos ((active_after calls).trans hengaged)]

/-- A working day: `system` is engaged twice in a row, then `user`, which is stopped for a while. -/
def workday : List Call :=
  [.engage Names.systemTimer 0 (.ofMillis (-50)), .engage Names.systemTimer 100 (.ofMillis (-50)),
    .engage Names.userTimer 250 (.ofMillis (-50)), .stop 400,
    .engage Names.userTimer 500 (.ofMillis (-50))]

/-- `user` has run from 250 to 400 and from 500 on, `system` up to 250, and the task was created 50
milliseconds before the first call. -/
theorem totals_partition_time_workday :
    (∀ c ∈ workday, c.engaged ≠ some Names.startDelay) ∧
    (workday.map Call.time ++ [650]).Pairwise (· ≤ ·) ∧
    ((after workday).totals.getD Names.userTimer 0 +
      (after workday).running (· == Names.userTimer) 650 : Int) = 300 ∧
    ((after workday).totals.sumOver (· != Names.startDelay) +
      (after workday).running (fun _ => true) 650 : Int) = 550 ∧
    (after workday).totals.get? Names.startDelay = some 300 := by
  have hnames : ∀ c ∈ workday, c.engaged ≠ some Names.startDelay := by decide
  have htimes : (workday.map Call.time ++ [650]).Pairwise (· ≤ ·) := by decide
  obtain ⟨hname, hall, -, hdelay, -⟩ := totals_partition_time hnames htimes
  refine ⟨hnames, htimes, ?_, ?_, ?_⟩
  · rw [hname Names.userTimer (by decide)]
    decide
  · rw [hall]
    decide
  · rw [hdelay]
    decide

end Timers
end TaskTable
