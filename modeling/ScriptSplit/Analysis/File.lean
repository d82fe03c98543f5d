import ScriptSplit.Analysis.Log
import ScriptSplit.Module.Classifier
import ScriptSplit.Registry.Dependency
import ScriptSplit.Report.Types
import ScriptSplit.Text.Utf8

/-!
# Analysis of one file

Extracts the functions of a script, finds their bodies, builds the call graph, classifies the
functions and collects what the file uses outside of them.

* `globalUsage`, `platformUsage`, `elementIds`: references of the file as a whole.
* `Summary.ofParts`: the counters.
* `analyze`: the report, or the refusal of a text that is not UTF-8.
-/

namespace ScriptSplit

open Script

/-- A property of the global object: the word `window`, a point and a name. -/
def windowForm : Pattern Bytes := fun before t =>
  if atBoundary before t then do
    let r ← keyword? "window." t
    word? r
  else none

/-- A variable declaration: a binder and a name. -/
def variableForm : Pattern Bytes := fun before t =>
  if atBoundary before t then do
    let r ← blanks1 (← binder? t)
    word? r
  else none

/-- Either quote of an element id. -/
def idQuote? : Bytes → Option Bytes
  | [] => none
  | b :: r => if b == 0x22 || b == 0x27 then some r else none

/-- Word bytes and hyphens make up element ids. -/
def isIdByte (b : UInt8) : Bool := isWordByte b || b == 0x2d

/-- A look-up of an element by a literal id. -/
def elementForm : Pattern Bytes := fun _ t => do
  let r ← keyword? "getElementById(" t
  let r ← idQuote? (blanks r)
  let id := r.takeWhile isIdByte
  if id.isEmpty then none
  else do
    let r ← idQuote? (r.dropWhile isIdByte)
    let r ← byte? closeParen (blanks r)
    pure (id, r)

/-- The variables, configured globals and window properties that occur outside every body. A
declaration that binds a known function is no variable. -/
def globalUsage (globals : List String) (outside : Bytes) (known : List String) : List String :=
  let declared := (occurrences variableForm outside).map fun p => Bytes.ascii p.2
  let properties := (occurrences windowForm outside).map fun p => "window." ++ Bytes.ascii p.2
  sortedSet (declared.filter (fun v => !known.contains v) ++ foundSymbols globals outside ++ properties)

/-- The platform patterns that occur outside every body, in configured order. -/
def platformUsage (patterns : List String) (outside : Bytes) : List String :=
  patterns.filter fun p => outside.contains (Bytes.ofString p)

/-- The literal ids of element look-ups anywhere in the text. -/
def elementIds (t : Bytes) : List String :=
  sortedSet ((occurrences elementForm t).map fun p => Bytes.ascii p.2)

/-- The first function whose measure is greatest and positive, with that measure. -/
def firstGreatest (measure : Function → Int) (functions : List Function) : String × Int :=
  functions.foldl (fun best f => if best.2 < measure f then (f.name, measure f) else best) ("", 0)

/-- The counters of a file. -/
def Summary.ofParts (functions : List Function) (graph : Graph) (found : List Problem) : Summary :=
  let mostComplex := firstGreatest (·.complexity) functions
  let mostDependent := firstGreatest (fun f => f.dependencies.items.length) functions
  { totalFunctions := functions.length
    resolvedFunctions := functions.countP (·.resolved)
    functionsWithDependencies := functions.countP fun f => !f.dependencies.items.isEmpty
    independentFunctions := functions.countP fun f => f.dependencies.items.isEmpty
    totalEdges := graph.edgeCount
    mostComplexFunction := mostComplex.1
    maxComplexity := mostComplex.2
    mostDependentFunction := mostDependent.1
    maxDependencies := mostDependent.2
    problemCount := found.length }

/-- The content of the file is not UTF-8. -/
structure EncodingError where
  path : String
  deriving DecidableEq, Repr

/-- The text of an encoding error. -/
def EncodingError.message (e : EncodingError) : String := e.path ++ ": content is not valid UTF-8"

/-- The result for a text that is known to be UTF-8. -/
def resultOf (cfg : Config) (path : String) (t : Bytes) : FileResult :=
  let globals := cfg.symbols.globals.items
  let patterns := cfg.symbols.platformAPI.items
  let outline := Outline.ofText t
  let deps := Dependencies.ofOutline t outline globals patterns
  let outside := outline.outside t
  let classifier := Classifier.ofConfig cfg
  let found := classifier.problems deps.functions
  { report :=
      { path := path
        summary := Summary.ofParts deps.functions deps.graph found
        functions := some deps.functions
        modules := some ((classifier.modules deps.functions).map fun p => (p.1, some p.2))
        dependencies := some deps.graph
        problems := some found
        globalUsage := some (globalUsage globals outside (deps.functions.map (·.name)))
        platformUsage := some (platformUsage patterns outside)
        elementIds := some (elementIds t)
        cycles := deps.cycles.map some
        unresolved := outline.unresolved }
    callSites := some (deps.callSites.map fun p => (p.1, some p.2)) }

/-- Analyses the content of one file. -/
def analyze (cfg : Config) (path : String) (content : Bytes) : Except EncodingError FileResult :=
  if Utf8.isValid content then .ok (resultOf cfg path content) else .error ⟨path⟩

/-- A result is the one of a text that is known to be UTF-8. -/
theorem eq_resultOf_of_analyze {cfg : Config} {path : String} {content : Bytes} {r : FileResult}
    (h : analyze cfg path content = .ok r) : r = resultOf cfg path content := by
  unfold analyze at h
  split at h
  · exact (Except.ok.inj h).symm
  · cases h

/-- What the analysis of a file tells about itself. -/
def analysisEvents (r : FileReport) : List LogEvent :=
  r.unresolved.map (fun u => LogEvent.debug "function body not resolved"
    [("path", r.path), ("function", u.name), ("reason", u.reason)]) ++
  [LogEvent.debug "file analyzed"
    [("path", r.path), ("functions", toString r.summary.totalFunctions),
     ("edges", toString r.summary.totalEdges), ("problems", toString r.summary.problemCount)]]

end ScriptSplit
