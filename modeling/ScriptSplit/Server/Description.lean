/-!
# Descriptions of the tools

What a tool is for, when to use it and how to read its results.
-/

namespace ScriptSplit

/-- The analysis of one file. -/
def analyzeFileDescription : String :=
  "\n".intercalate
    ["Maps the function-level call dependencies of one JavaScript or HTML file and suggests how to split it into modules.",
     "",
     "USE WHEN:",
     "- Planning how to break a large script into smaller modules",
     "- Checking which functions a change will ripple into",
     "- Finding functions that mix state handling with DOM work",
     "- Reviewing inline <script> blocks in HTML pages",
     "",
     "INTERPRETING RESULTS:",
     "- dependencies: functions this function calls; dependents: functions that call it",
     "- HighDependencyCount: calls more than 10 other functions, a split candidate",
     "- CriticalDependency: called by more than 15 functions, keep its interface stable",
     "- MixedResponsibility: touches global state and the platform API in the same body",
     "- complexity 0 with resolved=false: the body could not be located, edges are unknown",
     "- cycles: groups of functions that call each other and must move together",
     "",
     "METRICS RETURNED:",
     "- Per-function: kind, line, dependencies, dependents, complexity, flags",
     "- modules: suggested module tag for every function",
     "- problems, globalUsage, platformUsage, elementIds",
     "- summary: totals, most complex and most dependent functions",
     "",
     "Pass either path (a file on disk) or content (inline source, with an optional name).",
     "Detection is heuristic: calls through variables, callbacks and computed names are not seen."]

/-- The analysis of a directory. -/
def analyzeProjectDescription : String :=
  "\n".intercalate
    ["Analyzes every JavaScript and HTML file under a directory and reports calls that cross file boundaries.",
     "",
     "USE WHEN:",
     "- Getting an overview of a multi-file front end before restructuring it",
     "- Finding which files depend on functions defined elsewhere",
     "- Locating the files with the most structural problems",
     "",
     "INTERPRETING RESULTS:",
     "- files: one report per analyzed file, in path order",
     "- crossFileDependencies: caller in one file, callee defined in another",
     "- warnings: files that could not be analyzed (unreadable, not UTF-8, too large)",
     "- incomplete=true: the run was cancelled and some files were skipped",
     "- When several files define the same name, the first file by path owns it",
     "",
     "METRICS RETURNED:",
     "- summary: totalFiles, analyzedFiles, failedFiles, totalFunctions, totalProblems",
     "- crossFileDependencies and per-file reports (omit with summary_only)"]

/-- The flowchart of one file. -/
def dependencyGraphDescription : String :=
  "\n".intercalate
    ["Renders the call graph of one file as a Mermaid flowchart grouped by suggested module.",
     "",
     "USE WHEN:",
     "- Visualizing a proposed module split",
     "- Explaining dependencies in documentation or a review comment",
     "",
     "INTERPRETING RESULTS:",
     "- Each subgraph is one suggested module",
     "- An arrow A --> B means A calls B",
     "- Arrows between subgraphs are the interfaces a split would create",
     "",
     "METRICS RETURNED:",
     "- Mermaid source text (graph LR)"]

end ScriptSplit
