import ScriptSplit.Format.Json.Value
import ScriptSplit.Number.Word64
import ScriptSplit.Report.Types
import ScriptSplit.Text.Case

/-!
# Reports from JSON

Reads what `toJson` writes. A field that is absent or `null` has its empty value, a field of another
name is passed over, and field names are compared without regard to case.

* `Json.member`: the value of a field.
* `ofJson?` of each part of a report; the answer is `none` where a value has the wrong type.
-/

namespace ScriptSplit

open Script (Unresolved)

namespace Json

/-- The value of the last field of a name, whatever its case; `null` when there is none. -/
def member (key : String) : Json → Json
  | object fields =>
    match fields.reverse.find? fun p => lowerCase p.1 == lowerCase key with
    | some p => p.2
    | none => null
  | _ => null

/-- A value that holds fields, or `null` for one without any. -/
def isRecord : Json → Bool
  | object _ => true
  | null => true
  | _ => false

/-- A text. -/
def text? : Json → Option String
  | null => some ""
  | string s => some s
  | _ => none

/-- A truth value. -/
def bool? : Json → Option Bool
  | null => some false
  | bool b => some b
  | _ => none

/-- An integer of 64 bits. -/
def int? : Json → Option Int
  | null => some 0
  | number literal => do
    let n ← literalInt? literal
    if Word64.fits n then some n else none
  | _ => none

/-- A listing of values. -/
def listing? {α : Type} (decode : Json → Option α) : Json → Option (Listing α)
  | null => some none
  | array items => (items.mapM decode).map some
  | _ => none

/-- A listing of names. -/
def names? (j : Json) : Option (Listing String) := listing? text? j

/-- A dictionary of values. -/
def dict? {α : Type} (decode : Json → Option α) : Json → Option (Option (Dict α))
  | null => some none
  | object fields => do
    let pairs ← fields.mapM fun p => (decode p.2).map fun v => (p.1, v)
    pure (some (Dict.ofList pairs))
  | _ => none

end Json

/-- Reads a function. -/
def Function.ofJson? (j : Json) : Option Function := do
  guard j.isRecord
  some
    { name := ← (j.member "name").text?
      kind := .ofLabel (← (j.member "kind").text?)
      sourceOffset := ← (j.member "sourceOffset").int?
      line := ← (j.member "line").int?
      dependencies := ← (j.member "dependencies").names?
      dependents := ← (j.member "dependents").names?
      usesGlobalState := ← (j.member "usesGlobalState").bool?
      usesPlatformAPI := ← (j.member "usesPlatformAPI").bool?
      complexity := ← (j.member "complexity").int?
      resolved := ← (j.member "resolved").bool? }

/-- Reads the edges of a function. -/
def GraphEntry.ofJson? (j : Json) : Option GraphEntry := do
  guard j.isRecord
  some
    { dependencies := ← (j.member "dependencies").names?
      dependents := ← (j.member "dependents").names?
      complexity := ← (j.member "complexity").int? }

/-- Reads a finding. -/
def Problem.ofJson? (j : Json) : Option Problem := do
  guard j.isRecord
  some
    { functionName := ← (j.member "functionName").text?
      issueKind := .ofLabel (← (j.member "issueKind").text?)
      metric := ← (j.member "metric").int?
      suggestion := ← (j.member "suggestion").text? }

/-- Reads an unresolved function. -/
def unresolvedOfJson? (j : Json) : Option Unresolved := do
  guard j.isRecord
  some { name := ← (j.member "name").text?, reason := ← (j.member "reason").text? }

/-- Reads the counters of a file. -/
def Summary.ofJson? (j : Json) : Option Summary := do
  guard j.isRecord
  some
    { totalFunctions := ← (j.member "totalFunctions").int?
      resolvedFunctions := ← (j.member "resolvedFunctions").int?
      functionsWithDependencies := ← (j.member "functionsWithDependencies").int?
      independentFunctions := ← (j.member "independentFunctions").int?
      totalEdges := ← (j.member "totalEdges").int?
      mostComplexFunction := ← (j.member "mostComplexFunction").text?
      maxComplexity := ← (j.member "maxComplexity").int?
      mostDependentFunction := ← (j.member "mostDependentFunction").text?
      maxDependencies := ← (j.member "maxDependencies").int?
      problemCount := ← (j.member "problemCount").int? }

/-- Reads a file report. -/
def FileReport.ofJson? (j : Json) : Option FileReport := do
  guard j.isRecord
  some
    { path := ← (j.member "path").text?
      summary := ← Summary.ofJson? (j.member "summary")
      functions := ← (j.member "functions").listing? Function.ofJson?
      modules := ← (j.member "modules").dict? Json.names?
      dependencies := ← (j.member "dependencies").dict? GraphEntry.ofJson?
      problems := ← (j.member "problems").listing? Problem.ofJson?
      globalUsage := ← (j.member "globalUsage").names?
      platformUsage := ← (j.member "platformUsage").names?
      elementIds := ← (j.member "elementIds").names?
      cycles := (← (j.member "cycles").listing? Json.names?).items
      unresolved := (← (j.member "unresolved").listing? unresolvedOfJson?).items }

/-- Reads a warning. -/
def Warning.ofJson? (j : Json) : Option Warning := do
  guard j.isRecord
  some
    { path := ← (j.member "path").text?
      kind := .ofLabel (← (j.member "kind").text?)
      message := ← (j.member "message").text? }

/-- Reads a call between files. -/
def CrossFileCall.ofJson? (j : Json) : Option CrossFileCall := do
  guard j.isRecord
  some
    { caller := ← (j.member "caller").text?
      callerFile := ← (j.member "callerFile").text?
      callee := ← (j.member "callee").text?
      calleeFile := ← (j.member "calleeFile").text? }

/-- Reads the counters of a run. -/
def ProjectSummary.ofJson? (j : Json) : Option ProjectSummary := do
  guard j.isRecord
  some
    { totalFiles := ← (j.member "totalFiles").int?
      analyzedFiles := ← (j.member "analyzedFiles").int?
      failedFiles := ← (j.member "failedFiles").int?
      totalFunctions := ← (j.member "totalFunctions").int?
      totalProblems := ← (j.member "totalProblems").int?
      crossFileCalls := ← (j.member "crossFileDependencies").listing? CrossFileCall.ofJson?
      incomplete := ← (j.member "incomplete").bool? }

/-- Reads a project report. -/
def ProjectReport.ofJson? (j : Json) : Option ProjectReport := do
  guard j.isRecord
  some
    { root := ← (j.member "root").text?
      files := ← (j.member "files").listing? FileReport.ofJson?
      summary := ← ProjectSummary.ofJson? (j.member "summary")
      warnings := ← (j.member "warnings").listing? Warning.ofJson? }

/-- Reads the result of one file. The report has to be there. -/
def FileResult.ofJson? (j : Json) : Option FileResult := do
  guard (j.member "report" matches .object _)
  some
    { report := ← FileReport.ofJson? (j.member "report")
      callSites := ← (j.member "callSites").dict? Json.names? }

end ScriptSplit
