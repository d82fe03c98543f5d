import ScriptSplit.Registry.Cycle
import ScriptSplit.Script.Outline
import ScriptSplit.Script.CallSite
import ScriptSplit.Script.Complexity
import ScriptSplit.Script.Symbol

/-!
# Dependencies

Cross-references the bodies of an outline with its registry. One function depends on another when
its body has the other's name in call position.

* `Dependencies.ofOutline`: the registry with edges, scores and flags, the graph, the cycles and the
  call sites of each body.
-/

namespace ScriptSplit

open Script

/-- The finished registry of one text. -/
structure Dependencies where
  functions : List Function
  graph : Graph
  cycles : List (List String)
  /-- The names in call position in each resolved body. -/
  callSites : Dict (List String)

namespace Dependencies

/-- An outline entry with what its body shows. -/
structure Scored where
  function : Function
  /-- The names in call position, if there is a body. -/
  calls : Option (List String)

/-- Scores the body of one entry. -/
def score (t : Bytes) (globals patterns : List String) (e : OutlineEntry) : Scored :=
  match e.span with
  | .error _ => ⟨Outline.function e, none⟩
  | .ok span =>
    let body := span.body t
    ⟨{ Outline.function e with
        complexity := Script.complexity body
        usesGlobalState := anySymbol globals body
        usesPlatformAPI := anyPattern patterns body }, some (Script.callSites body)⟩

/-- The function of an entry calls the function of a name other than its own. -/
def Scored.dependsOn (s : Scored) (name : String) : Bool :=
  s.function.name != name && (s.calls.getD []).contains name

/-- The function of an entry with its edges to and from the functions of all entries. -/
def Scored.link (all : List Scored) (s : Scored) : Function :=
  { s.function with
    dependencies := some (sortStrings ((all.map (·.function.name)).filter s.dependsOn))
    dependents := some (sortStrings ((all.filter (·.dependsOn s.function.name)).map (·.function.name))) }

/-- The finished registry of scored entries. -/
def ofScored (all : List Scored) : Dependencies :=
  let functions := all.map (Scored.link all)
  { functions := functions
    graph := Graph.ofFunctions functions
    cycles := cycleGroups (all.map (·.function.name)) fun x =>
      match functions.find? (·.name == x) with
      | some f => f.dependencies.items
      | none => []
    callSites := Dict.ofList (all.filterMap fun s => s.calls.map fun c => (s.function.name, c)) }

/-- The finished registry of the outline of a text, for the given global symbols and platform
patterns. -/
def ofOutline (t : Bytes) (o : Outline) (globals patterns : List String) : Dependencies :=
  ofScored (o.entries.map (score t globals patterns))

end Dependencies

end ScriptSplit
