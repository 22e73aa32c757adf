import TaskTable.Json.Decode
import TaskTable.Recording.Basic

/-!
# The stored form of recordings

Recordings as JSON: an event is an object that names its kind.
-/

namespace TaskTable

open Json (Draft)

namespace Origin

/-- Every origin. -/
def all : List Origin :=
  [selector, fallback, signal]

/-- The name of an origin. -/
def name : Origin → String
  | selector => "selector"
  | fallback => "fallback"
  | signal => "signal"

/-- The origin with a name. -/
def ofName? (s : String) : Option Origin :=
  all.find? fun o => o.name == s

/-- The origin that a value stores. An object may bind its name to an empty object as well. -/
def ofDraft? : Draft → Option Origin
  | .obj [(s, .obj [])] => ofName? s
  | d => d.toName?.bind ofName?

end Origin

namespace Event

/-- The stored form of an event. -/
def toJson : Event → Json
  | state name executed t =>
    .obj [("kind", .str "state"), ("name", .str name), ("executed", .bool executed),
      ("at", t.toJson)]
  | transition s method value requested origin t =>
    .obj [("kind", .str "transition"), ("state", .str s), ("method", .str method),
      ("value", .str value), ("requested", .option .str requested), ("origin", .str origin.name),
      ("at", t.toJson)]

/-- The fields of a stored event apart from its kind. -/
def fieldsOf : (kind : String) → Option (List String)
  | "state" => some ["name", "executed", "at"]
  | "transition" => some ["state", "method", "value", "requested", "origin", "at"]
  | _ => none

/-- The event of a kind with the given fields. -/
def ofFields? (kind : String) (fields : List (Option Draft)) : Option Event :=
  match kind, fields with
  | "state", [name, executed, t] => do
    return state (← Draft.required Draft.toString? name) (← Draft.required Draft.toBool? executed)
      (← Draft.required Draft.toInstant? t)
  | "transition", [s, method, value, requested, origin, t] => do
    return transition (← Draft.required Draft.toString? s) (← Draft.required Draft.toString? method)
      (← Draft.required Draft.toString? value) (← Draft.optional Draft.toString? requested)
      (← Draft.required Origin.ofDraft? origin)
      (← Draft.required Draft.toInstant? t)
  | _, _ => none

/-- The event that a value stores. In an array the kind comes first. No part of an event may be
faulty, its unknown fields included. -/
def ofDraft? (d : Draft) : Option Event := do
  let _ ← d.toJson?
  match d with
  | .obj fields =>
    let [kind] := fields.filter fun e => e.1 == "kind" | none
    let kind ← kind.2.toString?
    ofFields? kind (← d.toRecord? (← fieldsOf kind))
  | .arr (kind :: rest) =>
    let kind ← kind.toString?
    ofFields? kind (← (Draft.arr rest).toRecord? (← fieldsOf kind))
  | _ => none

end Event

namespace Recording

/-- The stored form of a recording. -/
def toJson (r : Recording) : Json :=
  .obj [("events", .list Event.toJson r.events), ("added_at", .option Instant.toJson r.addedAt),
    ("started_at", .option Instant.toJson r.startedAt),
    ("ended_at", .option Instant.toJson r.endedAt)]

/-- The recording that a value stores. -/
def ofDraft? (d : Draft) : Option Recording := do
  let [events, added, started, ended] ←
    d.toRecord? ["events", "added_at", "started_at", "ended_at"] | none
  return {
    events := ← Draft.required (Draft.toList? Event.ofDraft?) events
    addedAt := ← Draft.optional Draft.toInstant? added
    startedAt := ← Draft.optional Draft.toInstant? started
    endedAt := ← Draft.optional Draft.toInstant? ended }

end Recording

end TaskTable
