import ScriptSplit.Report.Types
import ScriptSplit.Format.Json.Value

/-!
# Reports as JSON

The field names and their order are the same in every output format.

* `toJson` of each part of a report; a listing that was never filled in is `null`.
-/

namespace ScriptSplit

open Script (Unresolved)

/-- A listing as an array, or `null`. -/
def Listing.toJson {α : Type} (encode : α → Json) (l : Listing α) : Json :=
  match l with
  | some items => .array (items.map encode)
  | none => .null

/-- A dictionary as an object, or `null`. -/
def dictJson {α : Type} (encode : α → Json) (d : Option (Dict α)) : Json :=
  match d with
  | some entries => Json.dict encode entries
  | none => .null

/-- A listing of names. -/
def namesJson (l : Listing String) : Json := Listing.toJson .string l

/-- A field that is left out when its text is empty. -/
def textField (key value : String) : List (String × Json) :=
  if value = "" then [] else [(key, .string value)]

/-- A function as it stands in a report. -/
def Function.toJson (f : Function) : Json :=
  .object [("name", .string f.name), ("kind", .string f.kind.label),
    ("sourceOffset", .int f.sourceOffset), ("line", .int f.line),
    ("dependencies", namesJson f.dependencies), ("dependents", namesJson f.dependents),
    ("usesGlobalState", .bool f.usesGlobalState), ("usesPlatformAPI", .bool f.usesPlatformAPI),
    ("complexity", .int f.complexity), ("resolved", .bool f.resolved)]

/-- The edges of a function as they stand in a report. -/
def GraphEntry.toJson (e : GraphEntry) : Json :=
  .object [("dependencies", namesJson e.dependencies), ("dependents", namesJson e.dependents),
    ("complexity", .int e.complexity)]

/-- A finding as it stands in a report. -/
def Problem.toJson (p : Problem) : Json :=
  .object [("functionName", .string p.functionName), ("issueKind", .string p.issueKind.label),
    ("metric", .int p.metric), ("suggestion", .string p.suggestion)]

/-- An unresolved function as it stands in a report. -/
def unresolvedJson (u : Unresolved) : Json :=
  .object [("name", .string u.name), ("reason", .string u.reason)]

/-- The counters of a file. -/
def Summary.toJson (s : Summary) : Json :=
  .object ([("totalFunctions", .int s.totalFunctions), ("resolvedFunctions", .int s.resolvedFunctions),
    ("functionsWithDependencies", .int s.functionsWithDependencies),
    ("independentFunctions", .int s.independentFunctions), ("totalEdges", .int s.totalEdges)] ++
    textField "mostComplexFunction" s.mostComplexFunction ++
    [("maxComplexity", .int s.maxComplexity)] ++
    textField "mostDependentFunction" s.mostDependentFunction ++
    [("maxDependencies", .int s.maxDependencies), ("problemCount", .int s.problemCount)])

/-- A file report. Cycles and unresolved functions are left out when there are none. -/
def FileReport.toJson (r : FileReport) : Json :=
  .object ([("path", .string r.path), ("summary", r.summary.toJson),
    ("functions", Listing.toJson Function.toJson r.functions),
    ("modules", dictJson namesJson r.modules),
    ("dependencies", dictJson GraphEntry.toJson r.dependencies),
    ("problems", Listing.toJson Problem.toJson r.problems),
    ("globalUsage", namesJson r.globalUsage), ("platformUsage", namesJson r.platformUsage),
    ("elementIds", namesJson r.elementIds)] ++
    (if r.cycles.isEmpty then [] else [("cycles", .array (r.cycles.map namesJson))]) ++
    (if r.unresolved.isEmpty then [] else [("unresolved", .array (r.unresolved.map unresolvedJson))]))

/-- A warning as it stands in a report. -/
def Warning.toJson (w : Warning) : Json :=
  .object [("path", .string w.path), ("kind", .string w.kind.label), ("message", .string w.message)]

/-- A call between files as it stands in a report. -/
def CrossFileCall.toJson (c : CrossFileCall) : Json :=
  .object [("caller", .string c.caller), ("callerFile", .string c.callerFile),
    ("callee", .string c.callee), ("calleeFile", .string c.calleeFile)]

/-- The counters of a run. -/
def ProjectSummary.toJson (s : ProjectSummary) : Json :=
  .object [("totalFiles", .int s.totalFiles), ("analyzedFiles", .int s.analyzedFiles),
    ("failedFiles", .int s.failedFiles), ("totalFunctions", .int s.totalFunctions),
    ("totalProblems", .int s.totalProblems),
    ("crossFileDependencies", Listing.toJson CrossFileCall.toJson s.crossFileCalls),
    ("incomplete", .bool s.incomplete)]

/-- A project report. -/
def ProjectReport.toJson (r : ProjectReport) : Json :=
  .object [("root", .string r.root), ("files", Listing.toJson FileReport.toJson r.files),
    ("summary", r.summary.toJson), ("warnings", Listing.toJson Warning.toJson r.warnings)]

/-- The result of one file, as the cache keeps it. -/
def FileResult.toJson (r : FileResult) : Json :=
  .object [("report", r.report.toJson), ("callSites", dictJson namesJson r.callSites)]

end ScriptSplit
