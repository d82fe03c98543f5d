import ScriptSplit.Config.Settings

/-!
# Problems

Rules that flag structurally risky functions.

* `IssueKind`: the rules; `IssueKind.suggestion`: the advice that goes with each.
* `problems`: the findings in registry order.
-/

namespace ScriptSplit

/-- The rule that flagged a function. A report that was read back may hold a label of its own. -/
inductive IssueKind where
  | highDependencyCount
  | criticalDependency
  | mixedResponsibility
  | highComplexity
  | other (label : String)
  deriving DecidableEq, Repr

namespace IssueKind

/-- The label of an issue in a report. -/
def label : IssueKind → String
  | highDependencyCount => "HighDependencyCount"
  | criticalDependency => "CriticalDependency"
  | mixedResponsibility => "MixedResponsibility"
  | highComplexity => "HighComplexity"
  | other s => s

/-- The issue that has a label. -/
def ofLabel (s : String) : IssueKind :=
  if s = "HighDependencyCount" then highDependencyCount
  else if s = "CriticalDependency" then criticalDependency
  else if s = "MixedResponsibility" then mixedResponsibility
  else if s = "HighComplexity" then highComplexity
  else other s

/-- The advice that goes with an issue. -/
def suggestion : IssueKind → String
  | highDependencyCount => "Split into smaller functions with fewer collaborators"
  | criticalDependency => "Move into a core module behind a stable interface or facade"
  | mixedResponsibility => "Separate state handling from presentation"
  | highComplexity => "Break up branching logic into helper functions"
  | other _ => ""

end IssueKind

/-- A finding about one function. -/
structure Problem where
  functionName : String
  issueKind : IssueKind
  metric : Int
  suggestion : String
  deriving DecidableEq, Repr

/-- The issues of one function with their measures, in the fixed order of the rules. -/
def issuesOf (limits : Thresholds) (f : Function) : List (IssueKind × Int) :=
  let calls : Int := f.dependencies.items.length
  let callers : Int := f.dependents.items.length
  (if limits.dependencyCount < calls then [(.highDependencyCount, calls)] else []) ++
  (if limits.dependentCount < callers then [(.criticalDependency, callers)] else []) ++
  (if f.usesGlobalState && f.usesPlatformAPI then [(.mixedResponsibility, 1)] else []) ++
  (if 0 < limits.complexity && limits.complexity < f.complexity then [(.highComplexity, f.complexity)] else [])

/-- Every finding, in registry order. -/
def problems (limits : Thresholds) (functions : List Function) : List Problem :=
  functions.flatMap fun f =>
    (issuesOf limits f).map fun (kind, metric) => ⟨f.name, kind, metric, kind.suggestion⟩

end ScriptSplit
