import TaskTable.Proofs.Json.Decode
import TaskTable.Task.Stored

/-!
# Tasks read back

A task is read back from its stored text as it was (`Task.ofText?_toText`), if its numbers fit their
words, its instants lie in the years that are written, and the data that its handlers keep is free
of fractions and not nested too deeply.
-/

namespace TaskTable

open Json (Draft)

/-! ## Names -/

theorem Status.ofName?_name (s : Status) : ofName? s.name = some s := by
  cases s <;> decide

theorem Phase.ofName?_name (p : Phase) : ofName? p.name = some p := by
  cases p <;> decide

theorem Origin.ofName?_name (o : Origin) : ofName? o.name = some o := by
  cases o <;> decide

/-! ## Parts -/

theorem optional_str (s : Option String) :
    Draft.optional Draft.toString? (some (Draft.ofJson (.option .str s))) = some s :=
  Draft.optional_option (fun _ h => by cases h) fun _ _ => rfl

theorem optional_instant {t : Option Instant} (h : t.all Instant.isExact = true) :
    Draft.optional Draft.toInstant? (some (Draft.ofJson (.option Instant.toJson t))) = some t := by
  refine Draft.optional_option (fun _ h => by cases h) fun x hx => ?_
  cases hx
  exact Draft.toInstant?_toJson h

theorem Exit.ofDraft?_toJson (e : Exit) : ofDraft? (Draft.ofJson e.toJson) = some e := by
  have hstatus : Status.ofDraft? (Draft.ofJson (.str e.status.name)) = some e.status :=
    Status.ofName?_name e.status
  rw [ofDraft?, toJson, Draft.toRecord?_obj (by rfl) (by decide)]
  simp only [List.map_cons, List.map_nil, Option.bind_eq_bind, Option.bind_some, Draft.required,
    hstatus, optional_str]
  rfl

/-! ## Recordings -/

namespace Event

/-- The object of an event is read by the fields of its kind. -/
theorem ofDraft?_kind {kind : String} {fields : List (String × Json)}
    (h : ("kind" :: fields.map (·.1)).Nodup) (hfields : fieldsOf kind = some (fields.map (·.1))) :
    ofDraft? (Draft.ofJson (.obj (("kind", .str kind) :: fields))) =
      ofFields? kind (fields.map fun e => some (Draft.ofJson e.2)) := by
  have hkind := Draft.filter_map_fields Draft.ofJson (("kind", .str kind) :: fields) h
    List.mem_cons_self
  have hrecord := Draft.toRecord?_of_mem Draft.ofJson (("kind", .str kind) :: fields) fields h
    fun _ he => List.mem_cons_of_mem _ he
  unfold ofDraft?
  rw [Draft.toJson?_ofJson, Draft.ofJson, Draft.ofFields_eq_map]
  simp only [Option.bind_eq_bind, Option.bind_some, hkind, Draft.toString?, Draft.ofJson, hfields,
    hrecord]

theorem ofDraft?_toJson {e : Event} (h : e.time.isExact = true) :
    ofDraft? (Draft.ofJson e.toJson) = some e := by
  have htime := Draft.toInstant?_toJson h
  cases e with
  | state name executed t =>
    change (Draft.ofJson t.toJson).toInstant? = some t at htime
    rw [toJson, ofDraft?_kind (by simp) (by rfl)]
    simp only [List.map_cons, List.map_nil, ofFields?, Draft.required, Option.bind_eq_bind,
      Option.bind_some, htime]
    rfl
  | transition s method value requested origin t =>
    -- `kind` is read first and tells which fields there are
    change (Draft.ofJson t.toJson).toInstant? = some t at htime
    have horigin : Origin.ofDraft? (Draft.ofJson (.str origin.name)) = some origin :=
      Origin.ofName?_name origin
    rw [toJson, ofDraft?_kind (by simp) (by rfl)]
    simp only [List.map_cons, List.map_nil, ofFields?, Draft.required, Option.bind_eq_bind,
      Option.bind_some, optional_str, horigin, htime]
    rfl

theorem isExact_toJson (e : Event) (levels : Nat) : e.toJson.isExact (levels + 1) = true := by
  cases e with
  | state => rfl
  | transition s method value requested => cases requested <;> rfl

end Event

namespace Recording

/-- Whether the stored form of the recording keeps it. -/
def isExact (r : Recording) : Bool :=
  r.events.all (·.time.isExact) && r.addedAt.all Instant.isExact &&
    r.startedAt.all Instant.isExact && r.endedAt.all Instant.isExact

theorem ofDraft?_toJson {r : Recording} (h : r.isExact = true) :
    ofDraft? (Draft.ofJson r.toJson) = some r := by
  simp only [isExact, Bool.and_eq_true, List.all_eq_true] at h
  obtain ⟨⟨⟨hevents, hadded⟩, hstarted⟩, hended⟩ := h
  have hlist : (Draft.ofJson (.list Event.toJson r.events)).toList? Event.ofDraft? =
      some r.events := Draft.toList?_list fun e he => Event.ofDraft?_toJson (hevents e he)
  rw [ofDraft?, toJson, Draft.toRecord?_obj (by rfl) (by decide)]
  simp only [List.map_cons, List.map_nil, Option.bind_eq_bind, Option.bind_some, Draft.required,
    hlist, optional_instant hadded, optional_instant hstarted, optional_instant hended]
  rfl

theorem isExact_toJson (r : Recording) (levels : Nat) :
    r.toJson.isExact (levels + 3) = true := by
  have hevents : (Json.list Event.toJson r.events).isExact (levels + 2) = true :=
    Json.isExact_list fun e _ => e.isExact_toJson levels
  refine Json.isExact_obj ?_
  simp only [List.forall_mem_cons, hevents, true_and]
  refine ⟨?_, ?_, ?_, by simp⟩ <;> exact Json.isExact_option fun _ _ => rfl

end Recording

/-! ## Contexts and timers -/

namespace StateContext

/-- Whether the stored form of the context keeps it: its data is in canonical form and holds exact
values, five levels below the task. -/
def isExact (c : StateContext) : Bool :=
  c.visits < Number.twoPow 32 && c.firstEntered.all Instant.isExact &&
    c.lastEntered.all Instant.isExact &&
      c.data.entries.all fun e => e.2.isExact 123 && e.2.canonical = e.2

/-- Whether the context can be held and written: its number of visits fits its word, its instants
lie in the years that are written, and its data is in canonical form and holds whole numbers. -/
def isSound (c : StateContext) : Bool :=
  c.visits < Number.twoPow 32 && c.firstEntered.all Instant.isExact &&
    c.lastEntered.all Instant.isExact &&
      c.data.entries.all fun e => e.2.isWhole && e.2.canonical = e.2

theorem isExact_iff (c : StateContext) :
    c.isExact = true ↔ c.isSound = true ∧ Json.depthOfFields c.data.entries ≤ 123 := by
  simp only [isExact, isSound, Bool.and_eq_true, List.all_eq_true, Json.isExact_iff,
    Json.depthOfFields_le_iff, and_assoc, and_congr_right_iff]
  intro _ _ _
  constructor
  · exact fun h => ⟨fun e he => ⟨(h e he).1, (h e he).2.2⟩, fun e he => (h e he).2.1⟩
  · exact fun h e he => ⟨(h.1 e he).1, h.2 e he, (h.1 e he).2⟩

/-- A context is read field by field. The fields are variables here, so that no bound on the number
of visits is computed with. -/
theorem ofDraft?_fields {d : Draft} {c : StateContext} {visits first last data : Option Draft}
    (hrecord : d.toRecord? ["visits", "first_entered_at", "last_entered_at", "data"] =
      some [visits, first, last, data])
    (hvisits : Draft.required Draft.toWord32? visits = some c.visits)
    (hfirst : Draft.optional Draft.toInstant? first = some c.firstEntered)
    (hlast : Draft.optional Draft.toInstant? last = some c.lastEntered)
    (hdata : Draft.required (Draft.toMap? fun a => a.toJson?.map Json.canonical) data =
      some c.data) : ofDraft? d = some c := by
  rw [ofDraft?, hrecord]
  simp only [Option.bind_eq_bind, Option.bind_some, hvisits, hfirst, hlast, hdata]
  rfl

theorem ofDraft?_toJson {c : StateContext} (h : c.isSound = true) :
    ofDraft? (Draft.ofJson c.toJson) = some c := by
  simp only [isSound, Bool.and_eq_true, List.all_eq_true, decide_eq_true_eq] at h
  obtain ⟨⟨⟨hvisits, hfirst⟩, hlast⟩, hdata⟩ := h
  have hword : (Draft.ofJson (.nat c.visits)).toWord32? = some c.visits :=
    Draft.toNat?_nat hvisits
  have hmap : (Draft.ofJson (.map id c.data)).toMap? (fun a => a.toJson?.map Json.canonical) =
      some c.data := Draft.toMap?_map fun e he => by
    rw [id, Draft.toJson?_ofJson, Option.map_some, (hdata e he).2]
  rw [toJson]
  refine ofDraft?_fields (Draft.toRecord?_obj (by rfl) (by decide)) ?_
    (optional_instant hfirst) (optional_instant hlast) hmap
  rw [Draft.required, Option.bind_some]
  exact hword

theorem isExact_toJson {c : StateContext} (h : c.isSound = true) {levels : Nat}
    (hdepth : Json.depthOfFields c.data.entries ≤ levels) :
    c.toJson.isExact (levels + 2) = true := by
  simp only [isSound, Bool.and_eq_true, List.all_eq_true, decide_eq_true_eq] at h
  obtain ⟨⟨⟨hvisits, -⟩, -⟩, hdata⟩ := h
  have hmap : (Json.map id c.data).isExact (levels + 1) = true := Json.isExact_map fun e he =>
    (Json.isExact_iff levels e.2).2 ⟨(hdata e he).1, Json.depthOfFields_le_iff.1 hdepth e he⟩
  have hcount : (Json.nat c.visits).isExact (levels + 1) = true :=
    Json.isExact_word32 hvisits (levels + 1)
  refine Json.isExact_obj ?_
  simp only [List.forall_mem_cons, hcount, hmap, true_and]
  exact ⟨Json.isExact_option fun _ _ => rfl, Json.isExact_option fun _ _ => rfl, by simp⟩

end StateContext

namespace Timers

/-- Whether the stored form of the timers keeps them. -/
def isExact (t : Timers) : Bool :=
  (t.totals.entries.all fun e => e.2 < Number.twoPow 64) && t.active.all (·.since.isExact)

theorem ofDraft?_toJson {t : Timers} (h : t.isExact = true) :
    ofDraft? (Draft.ofJson t.toJson) = some t := by
  simp only [isExact, Bool.and_eq_true, List.all_eq_true, decide_eq_true_eq] at h
  obtain ⟨htotals, hactive⟩ := h
  have hmap : (Draft.ofJson (.map .nat t.totals)).toMap? Draft.toWord64? = some t.totals :=
    Draft.toMap?_map fun e he => Draft.toNat?_nat (htotals e he)
  have hrunning : Draft.optional RunningTimer.ofDraft?
      (some (Draft.ofJson (.option RunningTimer.toJson t.active))) = some t.active := by
    refine Draft.optional_option (fun _ h => by cases h) fun a ha => ?_
    have hsince : (Draft.ofJson a.since.toJson).toInstant? = some a.since := by
      refine Draft.toInstant?_toJson ?_
      rw [Option.mem_def.1 ha] at hactive
      exact hactive
    rw [RunningTimer.ofDraft?, RunningTimer.toJson, Draft.toRecord?_obj (by rfl) (by decide)]
    simp only [List.map_cons, List.map_nil, Option.bind_eq_bind, Option.bind_some, Draft.required,
      hsince]
    rfl
  rw [ofDraft?, toJson, Draft.toRecord?_obj (by rfl) (by decide)]
  simp only [List.map_cons, List.map_nil, Option.bind_eq_bind, Option.bind_some, Draft.required,
    hmap, hrunning]
  rfl

theorem isExact_toJson {t : Timers} (h : t.isExact = true) (levels : Nat) :
    t.toJson.isExact (levels + 2) = true := by
  simp only [isExact, Bool.and_eq_true, List.all_eq_true, decide_eq_true_eq] at h
  have htotals : (Json.map Json.nat t.totals).isExact (levels + 1) = true :=
    Json.isExact_map fun e he => Json.isExact_nat (h.1 e he) levels
  refine Json.isExact_obj ?_
  simp only [List.forall_mem_cons, htotals, true_and]
  exact ⟨Json.isExact_option fun _ _ => rfl, by simp⟩

end Timers

/-! ## Tasks -/

namespace Task

theorem lineOfKey?_digits {line : Nat} (h : line < Number.twoPow 64) :
    lineOfKey? (String.ofList (Number.digits line)) = some line := by
  have hempty : (Number.digits line).isEmpty = false := by
    simpa using Number.digits_ne_nil line
  have hall : (Number.digits line).all Char.isDigit = true :=
    List.all_eq_true.2 fun _ => Number.isDigit_of_mem_digits
  have hread : Number.ofDigits? (Number.digits line) = some line := by
    simp only [Number.ofDigits?, hempty, hall, Bool.not_true, Bool.or_false, Bool.false_eq_true,
      if_false, Number.ofDigits_digits]
  simp only [lineOfKey?, String.toList_ofList, hread, Option.bind_eq_bind, Option.bind_some]
  exact if_pos ⟨trivial, h⟩

theorem countsOfDraft?_countsToJson {counts : SortedMap Nat Nat}
    (h : ∀ e ∈ counts.entries, e.1 < Number.twoPow 64 ∧ e.2 < Number.twoPow 32) :
    countsOfDraft? (Draft.ofJson (countsToJson counts)) = some counts := by
  rw [countsToJson, Draft.ofJson, countsOfDraft?, Draft.ofFields_eq_map, List.map_map,
    Draft.mapM_map (l := counts.entries), Option.map_some, SortedMap.ofList_entries]
  intro e he
  have hword : (Draft.ofJson (.nat e.2)).toWord32? = some e.2 := Draft.toNat?_nat (h e he).2
  simp only [Function.comp_apply, lineOfKey?_digits (h e he).1, hword, Option.bind_eq_bind,
    Option.bind_some]
  rfl

/-- Whether the stored form of the task keeps it: its numbers fit their words, its instants can be
written, and the data that handlers keep is free of fractions and not nested too deeply. -/
def isExact (t : Task) : Bool :=
  (t.counts.entries.all fun e => e.1 < Number.twoPow 64 && e.2 < Number.twoPow 32) &&
    t.contexts.entries.all (·.2.isExact) && t.timers.isExact &&
      (t.versions.entries.all fun e => e.2 < Number.twoPow 32) && t.recording.isExact &&
        t.createdAt.isExact

/-- Whether the task can be held and written: its numbers fit their words, its instants lie in the
years that are written, and the data that handlers keep is free of fractions. -/
def isSound (t : Task) : Bool :=
  (t.counts.entries.all fun e => e.1 < Number.twoPow 64 && e.2 < Number.twoPow 32) &&
    t.contexts.entries.all (·.2.isSound) && t.timers.isExact &&
      (t.versions.entries.all fun e => e.2 < Number.twoPow 32) && t.recording.isExact &&
        t.createdAt.isExact

/-- How deep the data that handlers keep is nested. -/
def dataDepth (t : Task) : Nat :=
  Json.depthOfFields (t.contexts.entries.flatMap (·.2.data.entries))

theorem dataDepth_le_iff {t : Task} {n : Nat} :
    t.dataDepth ≤ n ↔ ∀ e ∈ t.contexts.entries, Json.depthOfFields e.2.data.entries ≤ n := by
  simp only [dataDepth, Json.depthOfFields_le_iff, List.mem_flatMap]
  exact ⟨fun h e he a ha => h a ⟨e, he, ha⟩, fun h a ⟨e, he, ha⟩ => h e he a ha⟩

/-- A task that can be held is kept by its stored form, if its data is not nested too deeply. -/
theorem isExact_iff (t : Task) : t.isExact = true ↔ t.isSound = true ∧ t.dataDepth ≤ 123 := by
  simp only [isExact, isSound, Bool.and_eq_true, List.all_eq_true, StateContext.isExact_iff,
    dataDepth_le_iff]
  constructor
  · rintro ⟨⟨⟨⟨⟨hcounts, hcontexts⟩, htimers⟩, hversions⟩, hrecording⟩, hcreated⟩
    exact ⟨⟨⟨⟨⟨⟨hcounts, fun e he => (hcontexts e he).1⟩, htimers⟩, hversions⟩, hrecording⟩,
      hcreated⟩, fun e he => (hcontexts e he).2⟩
  · rintro ⟨⟨⟨⟨⟨⟨hcounts, hcontexts⟩, htimers⟩, hversions⟩, hrecording⟩, hcreated⟩, hdepth⟩
    exact ⟨⟨⟨⟨⟨hcounts, fun e he => ⟨hcontexts e he, hdepth e he⟩⟩, htimers⟩, hversions⟩,
      hrecording⟩, hcreated⟩

theorem ofDraft?_toJson {t : Task} (h : t.isSound = true) :
    ofDraft? (Draft.ofJson t.toJson) = some t := by
  simp only [isSound, Bool.and_eq_true, List.all_eq_true, decide_eq_true_eq] at h
  obtain ⟨⟨⟨⟨⟨hcounts, hcontexts⟩, htimers⟩, hversions⟩, hrecording⟩, hcreated⟩ := h
  have hphase : (Draft.ofJson (.str t.phase.name)).toName?.bind Phase.ofName? = some t.phase :=
    Phase.ofName?_name t.phase
  have hmap : (Draft.ofJson (.map StateContext.toJson t.contexts)).toMap? StateContext.ofDraft? =
      some t.contexts :=
    Draft.toMap?_map fun e he => StateContext.ofDraft?_toJson (hcontexts e he)
  have hwords : (Draft.ofJson (.map .nat t.versions)).toMap? Draft.toWord32? = some t.versions :=
    Draft.toMap?_map fun e he => Draft.toNat?_nat (hversions e he)
  have hexit : Draft.optional Exit.ofDraft? (some (Draft.ofJson (.option Exit.toJson t.exit))) =
      some t.exit :=
    Draft.optional_option (fun _ h => by cases h) fun e _ => e.ofDraft?_toJson
  rw [ofDraft?, toJson, Draft.toRecord?_obj (by rfl) (by decide)]
  simp only [List.map_cons, List.map_nil, Option.bind_eq_bind, Option.bind_some, Draft.required,
    optional_str, hphase, countsOfDraft?_countsToJson hcounts, hmap,
    Timers.ofDraft?_toJson htimers, hexit, hwords, Recording.ofDraft?_toJson hrecording,
    Draft.toInstant?_toJson hcreated]
  rfl

theorem isExact_toJson {t : Task} (h : t.isSound = true) {levels : Nat}
    (hdepth : t.dataDepth ≤ levels) : t.toJson.isExact (levels + 4) = true := by
  simp only [isSound, Bool.and_eq_true, List.all_eq_true, decide_eq_true_eq] at h
  obtain ⟨⟨⟨⟨⟨hcounts, hcontexts⟩, htimers⟩, hversions⟩, -⟩, -⟩ := h
  -- a value of a handler's data stands in a map, in a context, in a map, in the task, so it may
  -- nest four levels less than the task
  have hlines : (countsToJson t.counts).isExact (levels + 3) = true := by
    refine Json.isExact_obj fun e he => ?_
    obtain ⟨e', he', rfl⟩ := List.mem_map.1 he
    exact Json.isExact_word32 (hcounts e' he').2 (levels + 2)
  have hmap : (Json.map StateContext.toJson t.contexts).isExact (levels + 3) = true :=
    Json.isExact_map fun e he =>
      StateContext.isExact_toJson (hcontexts e he) (dataDepth_le_iff.1 hdepth e he)
  have hwords : (Json.map Json.nat t.versions).isExact (levels + 3) = true :=
    Json.isExact_map fun e he => Json.isExact_word32 (hversions e he) (levels + 2)
  have hexit : (Json.option Exit.toJson t.exit).isExact (levels + 3) = true := by
    refine Json.isExact_option fun e _ => ?_
    cases hmessage : e.message <;> simp [Exit.toJson, hmessage, Json.isExact, Json.areExactFields,
      Json.option]
  refine Json.isExact_obj ?_
  simp only [List.forall_mem_cons, hlines, hmap, hwords, hexit,
    Timers.isExact_toJson htimers (levels + 1), t.recording.isExact_toJson levels, true_and]
  exact ⟨rfl, rfl, Json.isExact_option fun _ _ => rfl, rfl, rfl, by simp⟩

theorem isWhole_toJson {t : Task} (h : t.isSound = true) : t.toJson.isWhole = true :=
  ((Json.isExact_iff _ _).1 (isExact_toJson h (Nat.le_refl _))).1

/-- The stored text of an exact task is read as the task. -/
theorem ofText?_toText {t : Task} (h : t.isExact = true) : ofText? t.toText = some t := by
  obtain ⟨hsound, hdepth⟩ := (isExact_iff t).1 h
  have hlevels := ((Json.isExact_iff 127 _).1 (isExact_toJson hsound hdepth)).2
  rw [ofText?, toText, Draft.ofText?_toText (isWhole_toJson hsound), Option.bind_some,
    Draft.upTo_of_depth_le 127 _ hlevels, ofDraft?_toJson hsound]

end Task
end TaskTable
