import TaskTable.Recording.Basic
import TaskTable.Text.Quoted

/-!
# Scripts of a recording

The scripts that make a later run choose as the recorded one did. Only what selectors gave goes into
them: errors take their routes by themselves.
-/

namespace TaskTable

namespace Script

/-- Pairs grouped by their first parts, in the order in which those first appear. -/
def group : List (String × String) → List (String × List String) :=
  List.foldl (fun groups e => add groups e.1 e.2) []
where
  /-- Groups with one more value. -/
  add : List (String × List String) → String → String → List (String × List String)
    | [], state, value => [(state, [value])]
    | (s, values) :: rest, state, value =>
      if s = state then (s, values ++ [value]) :: rest else (s, values) :: add rest state value

/-- A group as it stands in a simulation script. -/
def groupText (g : String × List String) : String :=
  g.1 ++ " \x7b\n" ++ String.join (g.2.map fun v => "    " ++ Text.quote v ++ "\n") ++ "\x7d\n"

/-- An entry as it stands in a verification script. -/
def entryText (e : String × String) : String :=
  e.1 ++ " " ++ Text.quote e.2 ++ "\n"

end Script

namespace Recording

/-- A simulation script that replays what the selectors gave. -/
def simulationScript (r : Recording) : String :=
  String.join ((Script.group r.selected).map Script.groupText)

/-- A verification script of what the selectors gave, in order. -/
def verificationScript (r : Recording) : String :=
  String.join (r.selected.map Script.entryText)

end Recording

end TaskTable
