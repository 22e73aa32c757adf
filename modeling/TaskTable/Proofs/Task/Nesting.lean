import TaskTable.Proofs.Task.Stored

/-!
# Tasks with nested data

The stored text tells tasks apart, whatever their handlers keep (`Task.toText_injective`). It is
read back as the task exactly if that data is nested no deeper than the reader of the text follows,
and otherwise not at all (`Task.ofText?_toText_eq`).
-/

namespace TaskTable

open Json (Draft)

/-! ## Data beyond the limit -/

namespace StateContext

/-- A context whose data is not read is not read. The fields are variables here, so that no bound on
the number of visits is computed with. -/
theorem ofDraft?_eq_none {d : Draft} {visits first last data : Option Draft}
    (hrecord : d.toRecord? ["visits", "first_entered_at", "last_entered_at", "data"] =
      some [visits, first, last, data])
    (hdata : Draft.required (Draft.toMap? fun a => a.toJson?.map Json.canonical) data = none) :
    ofDraft? d = none := by
  rw [ofDraft?, hrecord]
  simp only [Option.bind_eq_bind, Option.bind_some, hdata, Option.bind_none, Option.bind_fun_none]

/-- A context is not read with too few levels for its data. -/
theorem ofDraft?_upTo_eq_none {c : StateContext} {levels : Nat}
    (h : levels < Json.depthOfFields c.data.entries) :
    ofDraft? (Draft.upTo (levels + 2) c.toJson) = none := by
  obtain ⟨e, he, hdeep⟩ : ∃ e ∈ c.data.entries, levels < e.2.depth := by
    simpa [Json.depthOfFields_le_iff] using Nat.not_le.2 h
  have hdata : (Draft.upTo (levels + 1) (Json.map id c.data)).toMap?
      (fun a => a.toJson?.map Json.canonical) = none :=
    Draft.toMap?_upTo_eq_none ⟨e, he, by
      rw [id, Draft.toJson?_upTo_of_lt levels e.2 hdeep, Option.map_none]⟩
  rw [toJson]
  exact ofDraft?_eq_none (Draft.toRecord?_upTo (levels + 1) (by rfl) (by decide)) hdata

end StateContext

namespace Task

variable {t t' : Task}

/-- A task is not read with too few levels for the data in its contexts. -/
theorem ofDraft?_upTo_eq_none {levels : Nat} (h : levels < t.dataDepth) :
    ofDraft? (Draft.upTo (levels + 4) t.toJson) = none := by
  obtain ⟨e, he, hdeep⟩ : ∃ e ∈ t.contexts.entries,
      levels < Json.depthOfFields e.2.data.entries := by
    simpa [dataDepth_le_iff] using Nat.not_le.2 h
  have hcontexts : (Draft.upTo (levels + 3) (Json.map StateContext.toJson t.contexts)).toMap?
      StateContext.ofDraft? = none :=
    Draft.toMap?_upTo_eq_none ⟨e, he, StateContext.ofDraft?_upTo_eq_none hdeep⟩
  rw [ofDraft?, toJson, show levels + 4 = levels + 3 + 1 from rfl,
    Draft.toRecord?_upTo (levels + 3) (by rfl) (by decide)]
  simp only [List.map_cons, List.map_nil, Option.bind_eq_bind, Option.bind_some, Draft.required,
    hcontexts, Option.bind_none, Option.bind_fun_none]

/-- The stored text of a task is read as the task, if the data that handlers keep is nested at most
123 levels deep, and is refused otherwise. -/
theorem ofText?_toText_eq (h : t.isSound = true) :
    ofText? t.toText = if t.dataDepth ≤ 123 then some t else none := by
  split
  · next hdepth => exact ofText?_toText ((isExact_iff t).2 ⟨h, hdepth⟩)
  · next hdeep =>
    rw [ofText?, toText, Draft.ofText?_toText (isWhole_toJson h), Option.bind_some,
      ofDraft?_upTo_eq_none (Nat.not_le.1 hdeep)]

/-! ## Tasks told apart -/

/-- Tasks with the same stored text are the same, however deep their data is nested. -/
theorem toText_injective (h : t.isSound = true) (h' : t'.isSound = true)
    (htext : t'.toText = t.toText) : t' = t := by
  have hjson : t'.toJson = t.toJson :=
    Json.Draft.toText_injective (isWhole_toJson h') (isWhole_toJson h) htext
  have hread := ofDraft?_toJson h'
  rw [hjson, ofDraft?_toJson h] at hread
  exact (Option.some.inj hread).symm

/-- A task survives its stored text: no other task has the same text, and the text is read as the
task, if the data that handlers keep is nested at most 123 levels deep. -/
theorem stored_faithfully (h : t.isSound = true) :
    ofText? t.toText = (if t.dataDepth ≤ 123 then some t else none) ∧
      ∀ t' : Task, t'.isSound = true → t'.toText = t.toText → t' = t :=
  ⟨ofText?_toText_eq h, fun _ h' => toText_injective h h'⟩

/-- A task under way, with something in each of its parts. -/
def fullTask : Task where
  id := "t\"1\"\n\x01é😀"
  phase := .running
  current := some "poll"
  counts := .ofList [(2, 4294967295), (10, 1)]
  contexts := .ofList [("poll",
    { visits := 2
      firstEntered := some ⟨-1, 999000000⟩
      lastEntered := some ⟨0, 1000⟩
      data := .ofList [("seen", .arr [.null, .bool true, .int (-3), .str "\\",
        .obj [("a", .arr []), ("b", .int 18446744073709551615)]])] })]
  timers := ⟨.ofList [("user", 18446744073709551615)], some ⟨"system", ⟨59, 1500000000⟩⟩⟩
  exit := some ⟨.failed, some "no"⟩
  versions := .ofList [("task", 3)]
  recording :=
    { events :=
        [.state "poll" true ⟨0, 0⟩,
          .transition "poll" "check" "!" (some "again") .selector ⟨0, 5⟩]
      addedAt := some ⟨0, 0⟩ }
  tableHash := "00"
  createdAt := ⟨253402300799, 999999999⟩

/-- The task is read back, and one that differs in its phase has another text. -/
theorem stored_faithfully_fullTask :
    fullTask.isSound = true ∧ ofText? fullTask.toText = some fullTask ∧
      ({ fullTask with phase := .finished } : Task).toText ≠ fullTask.toText := by
  have hsound : fullTask.isSound = true := by decide +kernel
  have hsound' : ({ fullTask with phase := .finished } : Task).isSound = true := hsound
  obtain ⟨hread, hunique⟩ := stored_faithfully hsound
  exact ⟨hsound, hread.trans (if_pos (by decide +kernel)), fun htext =>
    absurd (congrArg Task.phase (hunique _ hsound' htext)) (by decide)⟩

/-! ## What is lost -/

/-- Arrays in one another. -/
def nestedArrays : Nat → Json
  | 0 => .null
  | n + 1 => .arr [nestedArrays n]

/-- A task with data that is nested one level too deep. -/
def deepTask : Task :=
  { create "t1" "" ⟨0, 0⟩ with
    contexts := .ofList [("poll", { data := .ofList [("deep", nestedArrays 124)] })] }

/-- Data may be nested too deeply to be read, and a leap second within a minute is written as the
second after it. -/
theorem deep_data_lost :
    deepTask.isSound = true ∧ ofText? deepTask.toText = none ∧
      create "t1" "" ⟨30, 1500000000⟩ ≠ create "t1" "" ⟨31, 500000000⟩ ∧
      (create "t1" "" ⟨30, 1500000000⟩).toText = (create "t1" "" ⟨31, 500000000⟩).toText := by
  have hsound : deepTask.isSound = true := by decide +kernel
  have htime : (⟨30, 1500000000⟩ : Instant).toText = (⟨31, 500000000⟩ : Instant).toText := by
    decide +kernel
  refine ⟨hsound, (ofText?_toText_eq hsound).trans (if_neg (by decide +kernel)), by decide, ?_⟩
  simp [toText, toJson, create, Recording.markAdded, Recording.toJson, Instant.toJson, Json.option,
    htime]

end Task
end TaskTable
