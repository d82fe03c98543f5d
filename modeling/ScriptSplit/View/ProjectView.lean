import ScriptSplit.View.FileView

/-!
# The view of a project report

* `projectDocument`: the summary of a run, its files, the calls between them and the warnings; in
  detail also the view of each file.
-/

namespace ScriptSplit

/-- The counters of a run. -/
def projectSummarySection (s : ProjectSummary) : Section :=
  .mk "Summary"
    ("\n".intercalate
      ["Files:      " ++ toString s.totalFiles ++ " (" ++ toString s.analyzedFiles ++ " analyzed, " ++
         toString s.failedFiles ++ " failed)",
       "Functions:  " ++ toString s.totalFunctions,
       "Problems:   " ++ toString s.totalProblems,
       "Cross-file: " ++ toString s.crossFileCalls.items.length,
       "Status:     " ++ if s.incomplete then "incomplete (cancelled)" else "complete"]) [] none

/-- The view of a run. -/
def projectDocument (ink : Ink) (detailed : Bool) (r : ProjectReport) : Document :=
  let calls := r.summary.crossFileCalls.items
  let warnings := r.warnings.items
  let parts :=
    [.part (projectSummarySection r.summary),
     plainTable "Files" ["Path", "Functions", "Edges", "Problems", "Max Complexity"]
      (r.files.items.map fun f =>
        [f.path, toString f.summary.totalFunctions, toString f.summary.totalEdges,
         toString f.summary.problemCount, toString f.summary.maxComplexity])] ++
    (if calls.isEmpty then []
      else [plainTable "Cross-File Dependencies" ["File", "Caller", "Callee", "Defined In"]
        (calls.map fun c => [c.callerFile, c.caller, c.callee, c.calleeFile])]) ++
    (if warnings.isEmpty then []
      else [plainTable "Warnings" ["Path", "Kind", "Message"]
        (warnings.map fun w => [w.path, w.kind.label, w.message])]) ++
    (if detailed then r.files.items.map (fileDocument ink) else [])
  .report ("Project Dependencies" ++ if r.root = "" then "" else ": " ++ r.root) parts none

end ScriptSplit
