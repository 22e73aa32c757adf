import TaskTable.Proofs.Migration.Hooks
import TaskTable.Proofs.Session.Relaid
import TaskTable.Proofs.Session.Resume
import TaskTable.Proofs.Table.Compiled

/-!
# Tables that are edited while a task is under way

Blank lines, comments and layout can be changed between two runs of a task. A transition is known by
the line of its declaration, so what the edit moves is looked for under its new number: the task
goes on as it would under the old table with the counts that are stored under the new numbers
(`resume_edited`).
-/

namespace TaskTable

/-! ## Edited tables -/

namespace Table

/-- What is said by the lines of a text other than blank and comment lines. -/
def said (source : String) : List (List Char) :=
  ((Text.lines source.toList).filter fun l => Text.content l ≠ []).map Text.content

/-- The numbers of the lines that say something. -/
def numbers (source : String) : List Nat :=
  (sourceLines source.toList).map (·.number)

/-- The number of a line in another text that says the same. -/
def moved (source source' : String) (n : Nat) : Nat :=
  ((numbers source')[(numbers source).idxOf n]?).getD 0

variable {source source' : String} {t : Table}

/-- What lines say does not depend on where they are. -/
theorem contents_map_snd (raw : List (List Char)) :
    (contents raw).map (·.2) =
      (raw.filter fun l => Text.content l ≠ []).map Text.content := by
  induction raw with
  | nil => rfl
  | cons l ls ih =>
    have hbelow : ((contents ls).map fun e => (e.1 + 1, e.2)).map (·.2) =
        (ls.filter fun l => Text.content l ≠ []).map Text.content := by
      rw [← ih, List.map_map]
      rfl
    unfold contents
    by_cases hl : Text.content l = []
    · simp only [hl, if_true, hbelow]
      simp [hl]
    · simp only [hl, if_false, List.map_cons, hbelow]
      simp [hl]

theorem contents_map_fst (source : String) :
    (contents (Text.lines source.toList)).map (·.1) = numbers source := by
  rw [← sourceLines_contents, List.map_map]
  rfl

theorem nodup_numbers (source : String) : (numbers source).Nodup :=
  (sourceLines_ascending source.toList).1.imp Nat.ne_of_lt

theorem numbers_pos {n : Nat} (h : n ∈ numbers source) : n ≠ 0 := by
  obtain ⟨l, hl, rfl⟩ := List.mem_map.1 h
  exact Nat.ne_of_gt ((sourceLines_ascending source.toList).2 l hl)

theorem length_numbers (source : String) : (numbers source).length = (said source).length := by
  rw [said, ← contents_map_snd, ← contents_map_fst, List.length_map, List.length_map]

/-- Lines that say the same are found at the same place. -/
theorem getElem_moved (hsaid : said source' = said source) {i : Nat}
    (hi : i < (numbers source).length) :
    ∃ hi' : i < (numbers source').length,
      moved source source' (numbers source)[i] = (numbers source')[i] := by
  have hi' : i < (numbers source').length := by
    rw [length_numbers, hsaid, ← length_numbers]
    exact hi
  refine ⟨hi', ?_⟩
  rw [moved, (nodup_numbers source).idxOf_getElem i hi, List.getElem?_eq_getElem hi',
    Option.getD_some]

/-- A text that says the same has the same contents under other numbers. -/
theorem contents_eq_map_moved (hsaid : said source' = said source) :
    contents (Text.lines source'.toList) =
      (contents (Text.lines source.toList)).map fun e => (moved source source' e.1, e.2) := by
  have hnumbers : numbers source' = (numbers source).map (moved source source') := by
    apply List.ext_getElem
    · rw [List.length_map, length_numbers, length_numbers, hsaid]
    · intro i hi' hi
      rw [List.length_map] at hi
      obtain ⟨_, hmoved⟩ := getElem_moved hsaid hi
      rw [List.getElem_map, hmoved]
  have htexts : (contents (Text.lines source'.toList)).map (·.2) =
      (contents (Text.lines source.toList)).map (·.2) := by
    rw [contents_map_snd, contents_map_snd]
    exact hsaid
  rw [← contents_map_fst, ← contents_map_fst] at hnumbers
  generalize contents (Text.lines source'.toList) = cs' at *
  generalize contents (Text.lines source.toList) = cs at *
  have hlength : cs'.length = cs.length := by
    simpa using congrArg List.length htexts
  apply List.ext_getElem
  · rw [hlength, List.length_map]
  · intro i hi' hi
    rw [List.length_map] at hi
    have hfst := List.getElem_of_eq hnumbers (by simpa using hi')
    have hsnd := List.getElem_of_eq htexts (by simpa using hi')
    simp only [List.getElem_map] at hfst hsnd ⊢
    exact Prod.ext hfst hsnd

/-- A transition is declared on a line that says something. -/
theorem mem_numbers (h : compile source = .ok t) {tr : Transition} (htr : tr ∈ t.declared) :
    tr.line ∈ numbers source := by
  obtain ⟨ss, htable⟩ := exists_isTable h
  obtain ⟨t', ht', hblocks, -⟩ := compile_of_isTable htable
  rw [h] at ht'
  cases ht'
  obtain ⟨b, hb, htr⟩ := List.mem_flatMap.1 htr
  rw [hblocks] at hb
  obtain ⟨d, rfl, hform⟩ := exists_form_of_mem hb htr
  obtain ⟨l, hl, hnumber, -⟩ := htable.exists_line hform
  exact List.mem_map.2 ⟨l, hl, hnumber⟩

/-- The new numbers of a text that says the same tell transitions apart. -/
theorem separates_moved (h : compile source = .ok t) (hsaid : said source' = said source) :
    t.Separates (moved source source') := by
  have hplace : ∀ tr ∈ t.declared, ∃ i, ∃ hi : i < (numbers source).length,
      ∃ hi' : i < (numbers source').length, (numbers source)[i] = tr.line ∧
        moved source source' tr.line = (numbers source')[i] := by
    intro tr htr
    obtain ⟨i, hi, hline⟩ := List.getElem_of_mem (mem_numbers h htr)
    obtain ⟨hi', hmoved⟩ := getElem_moved hsaid hi
    exact ⟨i, hi, hi', hline, hline ▸ hmoved⟩
  refine ⟨?_, fun tr htr => ?_, fun tr htr tr' htr' heq => ?_⟩
  · -- no line has the number 0, so it is not found
    have hzero : 0 ∉ numbers source := fun hmem => numbers_pos hmem rfl
    rw [moved, List.idxOf_of_notMem hzero, length_numbers, ← hsaid, ← length_numbers,
      List.getElem?_eq_none (Nat.le_refl _)]
    rfl
  · obtain ⟨i, -, hi', -, hmoved⟩ := hplace tr htr
    rw [hmoved]
    exact numbers_pos (List.getElem_mem hi')
  · obtain ⟨i, hi, hi', hline, hmoved⟩ := hplace tr htr
    obtain ⟨j, hj, hj', hline', hmoved'⟩ := hplace tr' htr'
    rw [hmoved, hmoved', (nodup_numbers source').getElem_inj_iff] at heq
    subst heq
    exact hline.symm.trans hline'

/-- A text that says the same is compiled to the same table on other lines. -/
theorem compile_of_said (h : compile source = .ok t) (hsaid : said source' = said source) :
    compile source' =
      .ok { t.renumber (moved source source') with sourceHash := Digest.sha256 source' } :=
  compile_of_contents (contents_eq_map_moved hsaid) h

/-- A table on other lines starts in the same state. -/
theorem startState_renumber (t : Table) (f : Nat → Nat) (hash : String) :
    startState { t.renumber f with sourceHash := hash } = t.startState := by
  unfold startState renumber
  cases t.blocks <;> rfl

end Table

/-! ## Carrying on under a table -/

namespace Setup

variable {σ τ : Type} {v : Setup σ τ}

/-- The setup that carries on with a task under a table. -/
def carryOn (v : Setup σ τ) (table : Table) (task : Task) : Setup σ τ :=
  { v with table, stored := some task }

/-- A task that is up to the code is carried on as it is, if no component of the code is at the last
version. -/
theorem build_carryOn {table : Table} {task : Task} {start : String}
    (hstart : table.startState = .ok start) (hup : task.IsUpTo v.handler.versions.entries)
    (hbelow : ∀ e ∈ v.handler.versions.entries, e.2 < Migration.lastVersion) (now : Instant) :
    ((v.carryOn table task).build now).2 =
      .ok ((v.carryOn table task).session v.memory
        { task with tableHash := table.sourceHash }) := by
  have hup' : task.IsUpTo (v.carryOn table task).handler.versions.entries := hup
  rw [build_eq_migrate rfl hstart, Migration.migrate_of_isUpTo hup' hbelow]
  rfl

end Setup

namespace Session

open Table (moved said)

variable {σ τ : Type} [Supply τ]

/-- Courses that do the same at different times record the same up to these times. -/
theorem events_course_congr {s : Session σ τ} (hignores : s.handler.IgnoresClock) {z : Instant}
    {as bs : List (Action τ)} (hsame : as.map (Action.atTime z) = bs.map (Action.atTime z)) :
    (s.course as).task.recording.events.map (Event.withTime z) =
      (s.course bs).task.recording.events.map (Event.withTime z) := by
  have hstilled := (stilled_course_congr hignores hsame).1
  rw [← (s.unlogged_course as).1, ← (s.unlogged_course bs).1]
  exact congrArg (fun s : LoggedSession σ τ => s.task.recording.events) hstilled

/-! ## Tasks under edited tables -/

omit [Supply τ] in
/-- A session that carries on with a task under an edited table is the one that carries on under the
old table with the counts that are stored under the new numbers, on other lines. -/
theorem relaid_carryOn {source source' : String} {t : Table}
    (hcompile : Table.compile source = .ok t) (hsaid : said source' = said source)
    (v : Setup σ τ) {task : Task} {counts : SortedMap Nat Nat}
    (hcounts : ∀ tr ∈ t.declared, tr.max ≠ 0 →
      counts.getD tr.line 0 = task.count (moved source source' tr.line)) :
    Relaid (moved source source')
      ((v.carryOn t { task with counts }).session v.memory
        { task with counts, tableHash := t.sourceHash })
      ((v.carryOn { t.renumber (moved source source') with sourceHash := Digest.sha256 source' }
        task).session v.memory { task with tableHash := Digest.sha256 source' }) :=
  { separates := Table.separates_moved hcompile hsaid
    table := ⟨_, rfl⟩
    counts := fun tr htr hmax => (hcounts tr htr hmax).symm
    same := rfl }

/-- A task that is carried on under a table with other blank lines, comments or layout goes on as it
would under the old table if each transition with a limit had the count that is stored under its new
number: with the same results of all steps, the same recording and the same counts. So it goes on as
it would have, if these transitions have the same counts stored under their old numbers and their
new ones. For a handler that does not look at the clock this is true of other times, up to these.
No component of the handler may be at the last version, or the task could not be carried on. -/
theorem resume_edited {source source' : String} {t : Table}
    (hcompile : Table.compile source = .ok t) (hsaid : said source' = said source) :
    ∃ t', Table.compile source' = .ok t' ∧
      t' = { t.renumber (moved source source') with sourceHash := Digest.sha256 source' } ∧
      ∀ (u : Setup σ τ) (start : Instant) (s : Session σ τ) (as : List (Action τ)),
        u.table = t → (u.build start).2 = .ok s →
        ∀ (v : Setup σ τ) (counts : SortedMap Nat Nat) (now now' : Instant),
          v.handler = u.handler →
          (∀ e ∈ v.handler.versions.entries, e.2 < Migration.lastVersion) →
          (∀ tr ∈ t.declared, tr.max ≠ 0 →
            counts.getD tr.line 0 = (s.course as).task.count (moved source source' tr.line)) →
          ∃ r r',
            ((v.carryOn t { (s.course as).task with counts }).build now).2 = .ok r ∧
            ((v.carryOn t' (s.course as).task).build now').2 = .ok r' ∧
            ∀ bs : List (Action τ),
              r'.results bs = r.results bs ∧
              (r'.course bs).task.recording = (r.course bs).task.recording ∧
              (∀ tr ∈ t.declared, tr.max ≠ 0 →
                (r'.course bs).task.count (moved source source' tr.line) =
                  (r.course bs).task.count tr.line) ∧
              (v.handler.IgnoresClock → ∀ (bs' : List (Action τ)) (z : Instant),
                bs'.map (Action.atTime z) = bs.map (Action.atTime z) →
                  r'.results bs' = r.results bs ∧
                  (r'.course bs').task.recording.events.map (Event.withTime z) =
                    (r.course bs).task.recording.events.map (Event.withTime z)) := by
  refine ⟨_, Table.compile_of_said hcompile hsaid, rfl, ?_⟩
  intro u start s as htable hbuild v counts now now' hhandler hbelow hcounts
  obtain ⟨hstable, hshandler⟩ := Setup.frame_build hbuild
  have hup := (upToDate_build hbuild).course as
  -- the task is up to date with the code that goes on with it, so nothing is migrated
  have hversions : (s.course as).task.IsUpTo v.handler.versions.entries := by
    rw [hhandler, ← hshandler, ← s.handler_course as]
    exact hup.versions
  obtain ⟨state, hstart⟩ := hup.start
  rw [table_course, hstable, htable] at hstart
  have hstart' : Table.startState { t.renumber (moved source source') with
      sourceHash := Digest.sha256 source' } = .ok state :=
    (Table.startState_renumber t _ _).trans hstart
  have hversions' : Task.IsUpTo { (s.course as).task with counts } v.handler.versions.entries :=
    hversions
  refine ⟨_, _, Setup.build_carryOn hstart hversions' hbelow now,
    Setup.build_carryOn hstart' hversions hbelow now', fun bs => ?_⟩
  obtain ⟨hcourse, hresults⟩ := (relaid_carryOn hcompile hsaid v hcounts).course bs
  have hrecording := hcourse.agree (·.task.recording) fun _ _ _ => rfl
  refine ⟨hresults, hrecording, fun tr htr hmax => ?_, fun hignores bs' z hsame => ?_⟩
  · refine hcourse.counts tr ?_ hmax
    rw [table_course]
    exact htr
  · rw [← hrecording, ← hresults]
    exact ⟨(stilled_course_congr hignores hsame).2, events_course_congr hignores hsame⟩

/-! ## A limit that is lifted by a comment -/

/-- A table whose task may poll twice, with a wait each time. -/
def repollSource : String :=
  "poll:check \x7b\n again poll wait=5 max=2\n done finish\n\x7d\n"

/-- The table with a comment above it. -/
def remarkedSource : String :=
  "# polls\n" ++ repollSource

/-- The table of `repollSource`. -/
def repollTable : Table where
  blocks :=
    [{ state := "poll"
       method := "check"
       transitions :=
        [{ value := "again", target := "poll", wait := 5, max := 2, line := 2 },
          { value := "done", target := "finish", line := 3 }]
       line := 1 }]
  index := .ofList [("poll", 0)]
  sourceHash := Digest.sha256 repollSource

/-- The table of `remarkedSource`. -/
def remarkedTable : Table :=
  { repollTable.renumber (· + 1) with sourceHash := Digest.sha256 remarkedSource }

theorem compile_repollSource : Table.compile repollSource = .ok repollTable :=
  Table.compile_of_foldlM (u := { table := { repollTable with sourceHash := "" } }) rfl rfl

theorem compile_remarkedSource : Table.compile remarkedSource = .ok remarkedTable :=
  Table.compile_of_foldlM (u := { table := { remarkedTable with sourceHash := "" } }) rfl rfl

/-- A new task of `repollTable` whose selector always asks to poll again. -/
def repollSetup : Setup Unit ScriptedSupply :=
  { pollAgain with table := repollTable }

/-- The task once it has polled twice. -/
def repollTask : Task :=
  ((repollSetup.newSession ⟨0, 0⟩).course (List.replicate 2 (.step .steady ⟨0, 0⟩))).task

/-- The task goes to `failure` as its limit is reached, but polls on under the table with a comment
above it: what was counted on line 2 is not looked for on line 3. -/
theorem comment_lifts_limit :
    Table.compile repollSource = .ok repollTable ∧
      Table.compile remarkedSource = .ok remarkedTable ∧
      Text.lines remarkedSource.toList = "# polls".toList :: Text.lines repollSource.toList ∧
      (repollSetup.build ⟨0, 0⟩).2 = .ok (repollSetup.newSession ⟨0, 0⟩) ∧
      ∃ r r', ((repollSetup.carryOn repollTable repollTask).build ⟨0, 0⟩).2 = .ok r ∧
        ((repollSetup.carryOn remarkedTable repollTask).build ⟨0, 0⟩).2 = .ok r' ∧
        r.results [.step .steady ⟨0, 0⟩] = [.ok (.running 0)] ∧
        r'.results [.step .steady ⟨0, 0⟩] = [.ok (.running 5)] ∧
        (r.course [.step .steady ⟨0, 0⟩]).task.current = some "failure" ∧
        (r'.course [.step .steady ⟨0, 0⟩]).task.current = some "poll" :=
  ⟨compile_repollSource, compile_remarkedSource, rfl, rfl, _, _, rfl, rfl, rfl, rfl, rfl, rfl⟩

/-- Under the table with the comment, the task goes on as it would with nothing counted. -/
theorem resume_edited_repollTask :
    ∃ r r', ((repollSetup.carryOn repollTable { repollTask with counts := .empty }).build
          ⟨0, 0⟩).2 = .ok r ∧
      ((repollSetup.carryOn remarkedTable repollTask).build ⟨0, 0⟩).2 = .ok r' ∧
      r'.results (List.replicate 3 (.step .steady ⟨0, 0⟩)) =
        r.results (List.replicate 3 (.step .steady ⟨0, 0⟩)) := by
  have hsaid : said remarkedSource = said repollSource := by decide +kernel
  obtain ⟨t', ht', -, hresume⟩ := resume_edited (σ := Unit) (τ := ScriptedSupply)
    compile_repollSource hsaid
  rw [compile_remarkedSource] at ht'
  cases ht'
  have hcounts : ∀ tr ∈ repollTable.declared, tr.max ≠ 0 →
      (SortedMap.empty : SortedMap Nat Nat).getD tr.line 0 =
        repollTask.count (moved repollSource remarkedSource tr.line) := by
    intro tr htr hmax
    have hcases : tr = { value := "again", target := "poll", wait := 5, max := 2, line := 2 } ∨
        tr = { value := "done", target := "finish", line := 3 } := by
      simpa [Table.declared, repollTable] using htr
    rcases hcases with rfl | rfl
    · rfl
    · exact absurd rfl hmax
  have hbuild : (repollSetup.build ⟨0, 0⟩).2 = .ok (repollSetup.newSession ⟨0, 0⟩) := rfl
  obtain ⟨r, r', hr, hr', hcourse⟩ := hresume repollSetup ⟨0, 0⟩
    (repollSetup.newSession ⟨0, 0⟩) (List.replicate 2 (.step .steady ⟨0, 0⟩)) rfl hbuild
    repollSetup .empty ⟨0, 0⟩ ⟨0, 0⟩ rfl (by decide) hcounts
  exact ⟨r, r', hr, hr', (hcourse _).1⟩

end Session
end TaskTable
