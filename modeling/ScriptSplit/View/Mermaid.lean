import ScriptSplit.Report.Types
import ScriptSplit.Text.Replace

/-!
# Flowcharts

The dependency graph as a Mermaid flowchart with one subgraph for each module that has a function.

* `mermaid`: the text of the chart.
-/

namespace ScriptSplit

/-- A name reduced to letters, digits and underscores. -/
def chartId (s : String) : String :=
  String.ofList (s.toList.map fun c => if c.isAlphanum || c = '_' then c else '_')

/-- A label with its quotes spelled out. -/
def chartLabel (s : String) : String := replaceAll s "\x22" "#quot;"

/-- The node of a function: that of the last function of the name. -/
def nodeOf? (functions : List Function) (name : String) : Option String :=
  (functions.zipIdx.reverse.find? fun p => p.1.name == name).map fun p => "f" ++ toString p.2

/-- A node with its label. -/
def chartNode (id label : String) : String := id ++ "[\x22" ++ chartLabel label ++ "\x22]\n"

/-- The subgraph of a module. Names without a function are passed over. -/
def chartModule (functions : List Function) (tag : String) (names : List String) : String :=
  "  subgraph " ++ chartNode ("m_" ++ chartId tag) tag ++
    String.join (names.filterMap fun name =>
      (nodeOf? functions name).map fun id => "    " ++ chartNode id name) ++
    "  end\n"

/-- The flowchart of a report. -/
def mermaid (r : FileReport) : String :=
  let functions := r.functions.items
  let filled := (r.modules.getD []).filter fun p => !p.2.items.isEmpty
  "graph LR\n" ++ String.join (filled.map fun p => chartModule functions p.1 p.2.items) ++
    String.join (functions.flatMap fun f => f.dependencies.items.map fun dep =>
      "  " ++ (nodeOf? functions f.name).getD "" ++ " --> " ++ (nodeOf? functions dep).getD "" ++ "\n")

end ScriptSplit
