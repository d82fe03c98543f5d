import ScriptSplit.Analysis.CrossFile
import ScriptSplit.Analysis.File
import ScriptSplit.Analysis.Pool
import ScriptSplit.Analysis.Source
import ScriptSplit.Cache.Store
import ScriptSplit.Config.Fingerprint
import ScriptSplit.Format.Json.Reader
import ScriptSplit.Format.Json.Writer
import ScriptSplit.Report.Encoding
import ScriptSplit.Scan.Scanner

/-!
# Analysis of a project

Each file is read, checked and analysed on its own; a file that fails becomes a warning. Results are
kept in the cache under the path and the fingerprint of the settings.

* `displayPath`: the path of a file as reports show it.
* `Analyzer.analyzeFile`: one file, with the cache consulted first.
* `ProjectReport.ofOutcomes`: the report on what became of each file.
* `Analyzer.analyzeFiles`, `Analyzer.analyzeTree`: a run over given files, or over a scanned directory.
* `Analyzer.scheduled?`: a run over given files on a pool of workers.
-/

namespace ScriptSplit

open Batch (JobError Outcome Slot)

/-- Why a file has no result. -/
inductive FileError where
  | tooLarge (size : Nat) (limit : Int)
  | read (cause : ReadError)
  | encoding (cause : EncodingError)
  deriving DecidableEq, Repr

/-- The text of a file error. -/
def FileError.message : FileError → String
  | tooLarge size limit =>
    "file exceeds size limit: " ++ toString size ++ " bytes > " ++ toString limit
  | read cause => "read failed: " ++ cause.message
  | encoding cause => cause.message

/-- The path as seen from the root, where it lies below it. -/
def displayPath (root path : String) : String :=
  if root = "" then path
  else
    match Path.rel? root path with
    | none => path
    | some rel =>
      if (Path.parts rel).head? = some ".." then path
      else if rel = "." then Path.base path
      else rel

/-- What a run goes by. -/
structure Analyzer where
  config : Config
  source : Source
  cache : Cache

/-- What a run changes: the disk that holds the cache, and the events told so far. -/
structure RunState where
  disk : Disk
  /-- The moment of the run, in nanoseconds. -/
  now : Int
  events : List LogEvent

/-- One more event. -/
def RunState.tell (s : RunState) (e : LogEvent) : RunState := { s with events := s.events ++ [e] }

namespace Analyzer

/-- The content is longer than the settings allow. A limit that is not positive allows everything. -/
def exceeds (cfg : Config) (size : Nat) : Bool := 0 < cfg.scan.maxFileSize && cfg.scan.maxFileSize < size

/-- The content of a file within the limit. The size is asked for first, so that long files need not
be read. -/
def content (a : Analyzer) (path : String) : Except (JobError FileError) Bytes :=
  let tooLarge := fun size => Except.error (JobError.failed (FileError.tooLarge size a.config.scan.maxFileSize))
  let read := fun (_ : Unit) =>
    match a.source.read path with
    | .error (.failed e) => .error (.failed (.read e))
    | .error (.crashed reason) => .error (.crashed reason)
    | .ok t => if exceeds a.config t.length then tooLarge t.length else .ok t
  match a.source.size? path with
  | some size => if exceeds a.config size then tooLarge size else read ()
  | none => read ()

/-- The key under which the cache keeps the result of a file. -/
def cacheKey (a : Analyzer) (display : String) : String := display ++ "@" ++ a.config.fingerprint

/-- The result that the cache holds for a file. An entry that is no result is dropped. -/
def cached (a : Analyzer) (display : String) (content : Bytes) (s : RunState) : Option FileResult × RunState :=
  let key := a.cacheKey display
  let (data, disk) := a.cache.lookup s.disk s.now key content
  let s := { s with disk := disk }
  match data with
  | none => (none, s)
  | some data =>
    match (Json.read? data).bind FileResult.ofJson? with
    | some r => (some r, s.tell (.debug "cache hit" [("path", display)]))
    | none =>
      match a.cache.invalidate s.disk key with
      | .ok disk => (none, { s with disk := disk })
      | .error e =>
        (none, s.tell (.debug "cache invalidate failed" [("path", display), ("error", e.message)]))

/-- Keeps the result of a file in the cache. -/
def keep (a : Analyzer) (display : String) (content : Bytes) (r : FileResult) (s : RunState) : RunState :=
  match a.cache.store s.disk s.now (a.cacheKey display) content (Bytes.ofString r.toJson.compact) with
  | .ok disk => { s with disk := disk }
  | .error e => s.tell (.debug "cache store failed" [("path", display), ("error", e.message)])

/-- The result of one file. -/
def analyzeFile (a : Analyzer) (display path : String) (s : RunState) :
    Except (JobError FileError) FileResult × RunState :=
  match a.content path with
  | .error e => (.error e, s)
  | .ok content =>
    match a.cached display content s with
    | (some r, s) => (.ok r, s)
    | (none, s) =>
      match analyze a.config display content with
      | .error e => (.error (.failed (.encoding e)), s)
      | .ok r =>
        let s := { s with events := s.events ++ analysisEvents r.report }
        (.ok r, a.keep display content r s)

end Analyzer

/-- The kind of warning that an error becomes. -/
def warningKind : JobError FileError → WarningKind
  | .failed (.read _) => .read
  | .failed (.encoding _) => .encoding
  | .failed (.tooLarge _ _) => .tooLarge
  | .crashed _ => .analysis

/-- The warning of a file without a result. -/
def warning? (root : String) (o : Outcome FileError FileResult) : Option Warning :=
  match o.slot with
  | .done _ => none
  | .failed e => some ⟨displayPath root o.path, warningKind e, e.message FileError.message⟩
  | .skipped =>
    some ⟨displayPath root o.path, .skipped, "analysis cancelled before this file was processed"⟩

/-- The results among outcomes. -/
def resultsOf (outcomes : List (Outcome FileError FileResult)) : List FileResult :=
  outcomes.filterMap fun o =>
    match o.slot with
    | .done r => some r
    | _ => none

/-- The report on what became of each file. -/
def ProjectReport.ofOutcomes (root : String) (outcomes : List (Outcome FileError FileResult)) : ProjectReport :=
  let results := resultsOf outcomes
  let files := results.map (·.report)
  { root := root
    files := some files
    summary :=
      { totalFiles := outcomes.length
        analyzedFiles := files.length
        failedFiles := (Batch.failures outcomes).length
        totalFunctions := files.foldr (fun f n => f.summary.totalFunctions + n) 0
        totalProblems := files.foldr (fun f n => (f.problems.items.length : Int) + n) 0
        crossFileCalls := some (crossFileCalls results)
        incomplete := outcomes.any fun o => !o.started }
    warnings := some (outcomes.filterMap (warning? root)) }

/-- What a run tells about the files that failed. -/
def failureEvents (root : String) (outcomes : List (Outcome FileError FileResult)) : List LogEvent :=
  let failed := Batch.failures outcomes
  failed.map (fun f => LogEvent.debug "file skipped"
    [("path", displayPath root f.1), ("kind", (warningKind f.2).label),
     ("error", f.2.message FileError.message)]) ++
  if failed.isEmpty then []
  else [LogEvent.warn "files not analyzed"
    [("failed", toString failed.length), ("error", Batch.failuresMessage FileError.message failed)]]

namespace Analyzer

/-- The job of a file in a run. -/
def job (a : Analyzer) (root : String) : Batch.Job RunState FileError FileResult := fun path s =>
  a.analyzeFile (displayPath root path) path s

/-- What becomes of the given files, in the order of their paths. In a run that is cancelled beforehand
no file is started. -/
def outcomes (a : Analyzer) (cancelled : Bool) (root : String) (files : List String) (s : RunState) :
    List (Outcome FileError FileResult) × RunState :=
  Batch.runBatch (fun _ => cancelled) (a.job root) (sortStrings files) s

/-- The report on the outcomes of a run, and what the run tells at its end. -/
def conclude (root : String) (r : List (Outcome FileError FileResult) × RunState) : ProjectReport × RunState :=
  (.ofOutcomes root r.1, { r.2 with events := r.2.events ++ failureEvents root r.1 })

/-- Analyses the given files. -/
def analyzeFiles (a : Analyzer) (cancelled : Bool) (root : String) (files : List String) (s : RunState) :
    ProjectReport × RunState :=
  conclude root (a.outcomes cancelled root files s)

/-- The number of workers on a machine with the given number of processors. -/
def workers (a : Analyzer) (cpus : Nat) : Nat := Batch.workerCount a.config.scan.workers cpus

/-- Analyses the given files on a pool of workers that makes the given moves. -/
def scheduled? (a : Analyzer) (cpus : Nat) (moves : List Batch.Move) (root : String) (files : List String)
    (s : RunState) : Option (ProjectReport × RunState) :=
  (Batch.schedule? (a.workers cpus) (a.job root) moves (sortStrings files) s).map (conclude root)

/-- Scans a directory and analyses the candidate files below it. -/
def analyzeTree (a : Analyzer) (cancelled : Bool) (root : String) (s : RunState) :
    Except ScanError (ProjectReport × RunState) :=
  match (Scanner.new a.config).scanDir s.disk root with
  | .error e => .error e
  | .ok (files, _) =>
    let s := s.tell (.debug "scan complete" [("root", root), ("files", toString files.length)])
    .ok (a.analyzeFiles cancelled root files s)

end Analyzer

end ScriptSplit
