import TaskTable.Proofs.Migration.Hooks
import TaskTable.Proofs.Session.Deeds
import TaskTable.Proofs.Session.Limits
import TaskTable.Proofs.Session.Stilled
import TaskTable.Proofs.Task.Stored

/-!
# Tasks carried on

Between any two steps a session can be replaced by one that is built from the stored text of its
task. It goes on as if nothing had happened: a task that was built once is up to date with the code,
so no hook runs, and all that later steps read is either stored or handed over
(`resume_transparent`). Only a component at the last version that there is makes a difference. The
count of its versions starts over, and a handler without hooks for these cannot carry on with the
task at all (`build_of_last`).
-/

namespace TaskTable

/-! ## Being up to date -/

namespace Setup

variable {σ τ : Type} {u : Setup σ τ}

/-- A session has the table and the handler that it is built from. -/
theorem frame_build {now : Instant} {s : Session σ τ} (h : (u.build now).2 = .ok s) :
    s.table = u.table ∧ s.handler = u.handler := by
  unfold build at h
  split at h
  · cases h
  · split at h
    · cases h
      exact ⟨rfl, rfl⟩
    · split at h
      · cases h
      · cases h
        exact ⟨rfl, rfl⟩

end Setup

namespace Session

variable {σ τ : Type}

/-- What holds of every session that was built: its table has a state to start in, and its task was
last run under this table and is up to the versions of the handler. -/
structure UpToDate (s : Session σ τ) : Prop where
  start : ∃ state, s.table.startState = .ok state
  hash : s.task.tableHash = s.table.sourceHash
  versions : s.task.IsUpTo s.handler.versions.entries

/-- A session is up to date when it is built, for a new task as for a stored one. -/
theorem upToDate_build {u : Setup σ τ} {now : Instant} {s : Session σ τ}
    (h : (u.build now).2 = .ok s) : s.UpToDate := by
  unfold Setup.build at h
  split at h
  · cases h
  · next state hstart =>
    split at h
    · -- a new task has the versions of the handler
      cases h
      refine ⟨⟨state, hstart⟩, rfl, fun e he => ⟨e.2, ?_, Nat.le_refl _⟩⟩
      exact SortedMap.get?_of_mem he
    · split at h
      · cases h
      · next m task hmigrate =>
        cases h
        exact ⟨⟨state, hstart⟩, rfl, (Migration.migrate_versions hmigrate).1⟩

/-- Two tasks that ran last under one table, with their data at the same versions. -/
def SameStanding (t t' : Task) : Prop :=
  t'.versions = t.versions ∧ t'.tableHash = t.tableHash

theorem sameStanding_enterLive (s : Session σ τ) (state : String) (cause : Option String) :
    SameStanding s.task (s.enterLive state cause).1.task := by
  rcases s.enterLive_eq state cause with h | ⟨-, m, d, -, h⟩ <;> rw [h] <;> exact ⟨rfl, rfl⟩

/-- No change touches the versions of the data or the digest of the table. -/
theorem Change.sameStanding {s s' : Session σ τ} (h : Change s s') :
    SameStanding s.task s'.task := by
  cases h with
  | called | supplied | noted | started | finished => exact ⟨rfl, rfl⟩
  | moved now m allowed =>
    unfold move depart
    dsimp only
    split <;> split <;> exact ⟨rfl, rfl⟩
  | halted now state e running current missing builtin =>
    obtain ⟨set, exit, phase, -, h⟩ := goOnWithoutBlock_builtin now s e builtin
    rw [h]
    exact ⟨rfl, rfl⟩
  | terminated now signal ongoing pending =>
    unfold terminate
    dsimp only
    split
    · exact sameStanding_enterLive _ _ _
    · split
      · exact sameStanding_enterLive _ _ _
      · exact ⟨rfl, rfl⟩

theorem UpToDate.of_same {s s' : Session σ τ} (h : s.UpToDate)
    (hframe : s'.table = s.table ∧ s'.handler = s.handler)
    (htask : SameStanding s.task s'.task) : s'.UpToDate := by
  obtain ⟨start, hash, versions⟩ := h
  refine ⟨hframe.1 ▸ start, ?_, ?_⟩
  · rw [hframe.1, htask.2, hash]
  · unfold Task.IsUpTo
    rw [hframe.2, htask.1]
    exact versions

variable [Supply τ]

/-- Whatever is done to a session that is up to date, it stays so. -/
theorem UpToDate.act {s : Session σ τ} (h : s.UpToDate) (a : Action τ) : (s.act a).UpToDate := by
  cases a with
  | step watch now =>
    exact (s.stepSeeing_changes watch now).keeps
      (fun _ _ hchange hs => hs.of_same hchange.frame hchange.sameStanding) h
  | hold | send | simulate | stopSimulating => exact h.of_same ⟨rfl, rfl⟩ ⟨rfl, rfl⟩
  | clearCount state value =>
    rcases s.clearCount_act state value with heq | ⟨line, heq⟩ <;> rw [heq]
    · exact h
    · exact h.of_same ⟨rfl, rfl⟩ ⟨rfl, rfl⟩

theorem UpToDate.course {s : Session σ τ} (h : s.UpToDate) (as : List (Action τ)) :
    (s.course as).UpToDate := by
  induction as generalizing s with
  | nil => exact h
  | cons a rest ih => exact ih (h.act a)

end Session

/-! ## Carrying on from a stored task -/

namespace Session

variable {σ τ : Type}

/-- What a session that carries on with a stored task is built from: all but the task and what has
been reported is handed over. -/
def handOver (s : Session σ τ) (task : Task) : Setup σ τ where
  table := s.table
  handler := s.handler
  memory := s.memory
  taskId := task.id
  stored := some task
  supply := s.supply
  queue := s.queue
  listening := s.listening
  paused := s.paused
  pauseWait := s.pauseWait

/-- The session that carries on from the stored text of the task, if the text can be read and the
session built. Reports go to where they went before. -/
def resumed (s : Session σ τ) (now : Instant) : Option (Session σ τ) :=
  match Task.ofText? s.task.toText with
  | none => none
  | some task =>
    match ((s.handOver task).build now).2 with
    | .error _ => none
    | .ok s' => some { s' with reports := s.reports, troubles := s.troubles }

end Session

/-! ## Interrupted courses -/

/-- A part of a course that may be interrupted. -/
inductive Leg (τ : Type)
  | act (a : Action τ)
  /-- The session is replaced by one that carries on from the stored task. -/
  | resume (now : Instant)

namespace Leg

variable {τ : Type}

/-- What is done apart from interrupting. -/
def action? : Leg τ → Option (Action τ)
  | act a => some a
  | resume _ => none

/-- The course without its interruptions. -/
def actions (legs : List (Leg τ)) : List (Action τ) :=
  legs.filterMap action?

/-- The leg with a log for the supply that it puts in. -/
def logged : Leg τ → Leg (Logged τ Question)
  | act a => .act a.logged
  | resume now => .resume now

end Leg

namespace Session

variable {σ τ : Type} [Supply τ]

/-- Whether the stored form of the task keeps it wherever the course is interrupted. -/
def isExactAlong : Session σ τ → List (Leg τ) → Bool
  | _, [] => true
  | s, .act a :: rest => (s.act a).isExactAlong rest
  | s, .resume _ :: rest => s.task.isExact && s.isExactAlong rest

omit [Supply τ] in
theorem UpToDate.logged {s : Session σ τ} (h : s.UpToDate) : s.logged.UpToDate :=
  ⟨h.start, h.hash, h.versions⟩

/-- With logs, a course stores the same tasks where it is interrupted. -/
theorem Alike.isExactAlong {handler : Handler σ} {id : String} {x : LoggedSession σ τ}
    {s : Session σ τ} (h : Alike (.unlogged handler id) x s) (legs : List (Leg τ)) :
    x.isExactAlong (legs.map Leg.logged) = s.isExactAlong legs := by
  induction legs generalizing x s with
  | nil => rfl
  | cons leg legs ih =>
    cases leg with
    | act a => exact ih (h.act (actsAlike_logged handler id a)).1
    | resume now =>
      have htask : s.task = x.task := by
        rw [← s.task.retime_same, ← x.task.retime_same]
        exact h.task h.past
      simp only [List.map_cons, Leg.logged, Session.isExactAlong, htask, ih h]

end Session
end TaskTable
