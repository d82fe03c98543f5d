import ScriptSplit.Module.Problem
import ScriptSplit.Script.Outline

/-!
# Reports

* `FileReport`: all that is known about one script.
* `ProjectReport`: the file reports of one run, with the calls between files and the files that
  could not be analysed.
-/

namespace ScriptSplit

open Script (Unresolved)

/-- The counters of one file. -/
structure Summary where
  totalFunctions : Int
  resolvedFunctions : Int
  functionsWithDependencies : Int
  independentFunctions : Int
  totalEdges : Int
  /-- The first function of greatest complexity; empty when all are zero. -/
  mostComplexFunction : String
  maxComplexity : Int
  /-- The first function with the most dependencies; empty when none has any. -/
  mostDependentFunction : String
  maxDependencies : Int
  problemCount : Int
  deriving DecidableEq, Repr

/-- The report on one script. -/
structure FileReport where
  path : String
  summary : Summary
  functions : Listing Function
  modules : Option (Dict (Listing String))
  dependencies : Option Graph
  problems : Listing Problem
  globalUsage : Listing String
  platformUsage : Listing String
  elementIds : Listing String
  cycles : List (Listing String)
  unresolved : List Unresolved
  deriving DecidableEq, Repr

/-- The function of a name. -/
def FileReport.function? (r : FileReport) (name : String) : Option Function :=
  r.functions.items.find? (·.name == name)

/-- The module under which a name is listed. -/
def FileReport.moduleOf? (r : FileReport) (name : String) : Option String :=
  ((r.modules.getD []).find? fun p => p.2.items.contains name).map Prod.fst

/-- Why a file has no report. -/
inductive WarningKind where
  | read
  | encoding
  | tooLarge
  | analysis
  | skipped
  | other (label : String)
  deriving DecidableEq, Repr

/-- The label of a warning in a report. -/
def WarningKind.label : WarningKind → String
  | read => "read"
  | encoding => "encoding"
  | tooLarge => "too_large"
  | analysis => "analysis"
  | skipped => "skipped"
  | other s => s

/-- The warning that has a label. -/
def WarningKind.ofLabel (s : String) : WarningKind :=
  if s = "read" then read
  else if s = "encoding" then encoding
  else if s = "too_large" then tooLarge
  else if s = "analysis" then analysis
  else if s = "skipped" then skipped
  else other s

/-- A file without a report. -/
structure Warning where
  path : String
  kind : WarningKind
  message : String
  deriving DecidableEq, Repr

/-- A call from a function of one file to a function of another. -/
structure CrossFileCall where
  caller : String
  callerFile : String
  callee : String
  calleeFile : String
  deriving DecidableEq, Repr

/-- The counters of a run. -/
structure ProjectSummary where
  totalFiles : Int
  analyzedFiles : Int
  failedFiles : Int
  totalFunctions : Int
  totalProblems : Int
  crossFileCalls : Listing CrossFileCall
  /-- Some files were not reached. -/
  incomplete : Bool
  deriving DecidableEq, Repr

/-- The report on a run over many files. -/
structure ProjectReport where
  root : String
  files : Listing FileReport
  summary : ProjectSummary
  warnings : Listing Warning
  deriving DecidableEq, Repr

/-- What the analysis of one file gives: its report, and the names in call position in each body. -/
structure FileResult where
  report : FileReport
  callSites : Option (Dict (Listing String))
  deriving DecidableEq, Repr

end ScriptSplit
