import ScriptSplit.Report.Types
import ScriptSplit.View.Document

/-!
# The view of a file report

* `fileDocument`: summary, functions, problems, modules, cycles and references as a document.
-/

namespace ScriptSplit

/-- A name with its measure, or a dash. -/
def nameOrDash (name : String) (metric : Int) : String :=
  if name = "" then "-" else name ++ " (" ++ toString metric ++ ")"

/-- Names with commas between them, or a dash. -/
def namesOrDash (names : List String) : String :=
  if names.isEmpty then "-" else ", ".intercalate names

/-- The marks of a function in the table of functions. -/
def functionFlags (f : Function) : String :=
  ",".intercalate ((if f.usesGlobalState then ["global"] else []) ++
    (if f.usesPlatformAPI then ["platform"] else []) ++ (if f.resolved then [] else ["unresolved"]))

/-- The counters of a file. -/
def summarySection (s : Summary) : Section :=
  .mk "Summary"
    ("\n".intercalate
      ["Functions:          " ++ toString s.totalFunctions ++ " (" ++ toString s.resolvedFunctions ++ " resolved)",
       "With dependencies:  " ++ toString s.functionsWithDependencies,
       "Independent:        " ++ toString s.independentFunctions,
       "Edges:              " ++ toString s.totalEdges,
       "Most complex:       " ++ nameOrDash s.mostComplexFunction s.maxComplexity,
       "Most dependencies:  " ++ nameOrDash s.mostDependentFunction s.maxDependencies,
       "Problems:           " ++ toString s.problemCount]) [] none

/-- A table without a footer and without data of its own. -/
def plainTable (title : String) (headers : List String) (rows : List (List String)) : Document :=
  .table ⟨title, headers, rows, [], none⟩

/-- The functions of a file. -/
def functionTable (r : FileReport) : Document :=
  plainTable "Functions" ["Name", "Kind", "Line", "Calls", "Callers", "Complexity", "Module", "Flags"]
    (r.functions.items.map fun f =>
      [f.name, f.kind.label, toString f.line, toString f.dependencies.items.length,
       toString f.dependents.items.length, toString f.complexity, (r.moduleOf? f.name).getD "",
       functionFlags f])

/-- The findings about a file; colours show how urgent they are. -/
def problemTable (ink : Ink) (problems : List Problem) : Document :=
  plainTable "Problems" ["Function", "Issue", "Metric", "Suggestion"]
    (problems.map fun p =>
      let kind := p.issueKind.label
      [p.functionName, if ink.colored then ink.issue p.issueKind kind else kind, toString p.metric,
       p.suggestion])

/-- The modules that have a function. -/
def moduleTable (modules : Dict (Listing String)) : Document :=
  plainTable "Suggested Modules" ["Module", "Count", "Functions"]
    ((modules.filter fun p => !p.2.items.isEmpty).map fun p =>
      [p.1, toString p.2.items.length, ", ".intercalate p.2.items])

/-- The parts of the view of a file. -/
def fileParts (ink : Ink) (r : FileReport) : List Document :=
  [.part (summarySection r.summary), functionTable r] ++
  (if r.problems.items.isEmpty then [] else [problemTable ink r.problems.items]) ++
  [moduleTable (r.modules.getD [])] ++
  (if r.cycles.isEmpty then []
    else [.part (.mk "Cycles"
      ("\n".intercalate (r.cycles.map fun c => "- " ++ " -> ".intercalate c.items)) [] none)]) ++
  (if r.unresolved.isEmpty then []
    else [plainTable "Unresolved" ["Function", "Reason"] (r.unresolved.map fun u => [u.name, u.reason])]) ++
  [.part (.mk "File References"
    ("\n".intercalate
      ["Globals:      " ++ namesOrDash r.globalUsage.items,
       "Platform API: " ++ namesOrDash r.platformUsage.items,
       "Element IDs:  " ++ namesOrDash r.elementIds.items]) [] none)]

/-- The view of a file. -/
def fileDocument (ink : Ink) (r : FileReport) : Document :=
  .report ("Function Dependencies: " ++ r.path) (fileParts ink r) none

end ScriptSplit
