import TaskTable.Recording.Basic
import TaskTable.Text.Quoted

/-!
# Transcripts

A recording as text for people: a line for each event, which starts with the time since the task
started.
-/

namespace TaskTable
namespace Recording

/-- The time that stamps are counted from: the start, or the first event without one. -/
def origin? (r : Recording) : Option Instant :=
  r.startedAt <|> r.events.head?.map Event.time

/-- A stamp: seconds with three places. -/
def stamp (origin : Option Instant) (t : Instant) : String :=
  let ms := origin.elim 0 fun o => o.elapsedMillis t
  "[+" ++ toString (ms / 1000) ++ "." ++ String.ofList (Number.padded 3 (ms % 1000)) ++ "s]"

/-- The mark of a transition that no selector chose. -/
def originMark : Origin → String
  | .selector => ""
  | .fallback => " [fallback]"
  | .signal => " [signal]"

/-- An event in words. The target of a transition is the state entered right after it. -/
def describe (e : Event) (next : Option Event) : String :=
  match e with
  | .state name executed _ => "STATE " ++ name ++ if executed then "" else " (not executed)"
  | .transition state method value requested origin _ =>
    let target := (next.bind Event.entered?).elim "" fun s => " -> " ++ s
    let asked := requested.elim "" fun v => " (requested " ++ Text.quote v ++ ")"
    "TRANSITION " ++ state ++ ":" ++ method ++ " " ++ Text.quote value ++ target ++ asked
      ++ originMark origin

/-- The lines of events, with stamps counted from `origin`. -/
def transcriptLines (origin : Option Instant) : List Event → List String
  | [] => []
  | e :: rest =>
    (stamp origin e.time ++ " " ++ describe e rest.head?) :: transcriptLines origin rest

/-- The transcript of a recording. -/
def transcript (r : Recording) : String :=
  "\n".intercalate (transcriptLines r.origin? r.events)

end Recording
end TaskTable
