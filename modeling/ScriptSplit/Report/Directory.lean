import ScriptSplit.Disk.Tree
import ScriptSplit.Format.Json.Reader
import ScriptSplit.Format.Json.Writer
import ScriptSplit.Report.Decoding
import ScriptSplit.Report.Encoding
import ScriptSplit.Report.Naming
import ScriptSplit.Text.Quoted
import ScriptSplit.Time.Moment

/-!
# Report directories

A project report is kept as a directory: facts about its making, a summary with an index, and one
file for each analysed file.

* `Metadata`, `ReportIndex`: the contents of the two files at its top.
* `writeReport`: writes a report.
* `loadIndex`, `loadReport`: read it back.
* `reportFaults`: what is wrong with a directory.
-/

namespace ScriptSplit

/-- Facts about the making of a report. -/
structure Metadata where
  root : String
  generatedAt : Moment
  version : String
  configSource : String
  fingerprint : String
  filesAnalyzed : Int
  filesWithProblems : Int
  deriving DecidableEq, Repr

/-- From an analysed file to its report file. -/
structure IndexEntry where
  path : String
  report : String
  problems : Int
  deriving DecidableEq, Repr

/-- The summary of a report with its index. -/
structure ReportIndex where
  summary : ProjectSummary
  warnings : Listing Warning
  files : Listing IndexEntry
  deriving DecidableEq, Repr

/-! ## JSON -/

/-- The metadata file. -/
def Metadata.toJson (m : Metadata) : Json :=
  .object ([("root", .string m.root), ("generated_at", .string m.generatedAt.text),
    ("version", .string m.version)] ++ textField "config_source" m.configSource ++
    [("fingerprint", .string m.fingerprint), ("files_analyzed", .int m.filesAnalyzed),
     ("files_with_problems", .int m.filesWithProblems)])

/-- A moment; none is the zero moment. -/
def momentOfJson? : Json → Option Moment
  | .null => some .zero
  | .string s => Moment.parse? s
  | _ => none

/-- Reads the metadata file. -/
def Metadata.ofJson? (j : Json) : Option Metadata := do
  guard j.isRecord
  some
    { root := ← (j.member "root").text?
      generatedAt := ← momentOfJson? (j.member "generated_at")
      version := ← (j.member "version").text?
      configSource := ← (j.member "config_source").text?
      fingerprint := ← (j.member "fingerprint").text?
      filesAnalyzed := ← (j.member "files_analyzed").int?
      filesWithProblems := ← (j.member "files_with_problems").int? }

/-- An entry of the index. -/
def IndexEntry.toJson (e : IndexEntry) : Json :=
  .object [("path", .string e.path), ("report", .string e.report), ("problems", .int e.problems)]

/-- Reads an entry of the index. -/
def IndexEntry.ofJson? (j : Json) : Option IndexEntry := do
  guard j.isRecord
  some
    { path := ← (j.member "path").text?
      report := ← (j.member "report").text?
      problems := ← (j.member "problems").int? }

/-- The summary file. -/
def ReportIndex.toJson (r : ReportIndex) : Json :=
  .object [("summary", r.summary.toJson), ("warnings", Listing.toJson Warning.toJson r.warnings),
    ("files", Listing.toJson IndexEntry.toJson r.files)]

/-- Reads the summary file. -/
def ReportIndex.ofJson? (j : Json) : Option ReportIndex := do
  guard j.isRecord
  some
    { summary := ← ProjectSummary.ofJson? (j.member "summary")
      warnings := ← (j.member "warnings").listing? Warning.ofJson?
      files := ← (j.member "files").listing? IndexEntry.ofJson? }

/-! ## Writing -/

/-- The name of the metadata file. -/
def metadataFile : String := "metadata.json"

/-- The name of the summary file. -/
def summaryFile : String := "summary.json"

/-- Why a moment is not written. -/
inductive MomentFault where
  /-- The year has more than four digits. -/
  | year
  /-- The offset is a day or more. -/
  | offset
  deriving DecidableEq, Repr

/-- The text of a fault of a moment. -/
def MomentFault.message : MomentFault → String
  | year => "year outside of range [0,9999]"
  | offset => "timezone hour outside of range [0,23]"

/-- What keeps a moment from being written, if anything. -/
def Moment.fault? (m : Moment) : Option MomentFault :=
  if 9999 < m.year then some .year
  else if 24 ≤ m.offset.natAbs / 60 then some .offset
  else none

/-- Which part of a report could not be written, and why. -/
inductive ReportWriteError where
  | directory (cause : PathError)
  | directoryFor (path : String) (cause : PathError)
  | file (path : String) (cause : PathError)
  | metadata (cause : PathError)
  | moment (fault : MomentFault)
  | summary (cause : PathError)
  deriving DecidableEq, Repr

/-- The text of a write error. -/
def ReportWriteError.message : ReportWriteError → String
  | directory cause => "failed to create output directory: " ++ cause.message
  | directoryFor path cause => "failed to create directory for " ++ path ++ ": " ++ cause.message
  | file path cause => "failed to write report for " ++ path ++ ": " ++ cause.message
  | metadata cause => "failed to write metadata: " ++ cause.message
  | moment fault => "failed to write metadata: json: error calling MarshalJSON for type time.Time: " ++
      "Time.MarshalJSON: " ++ fault.message
  | summary cause => "failed to write summary: " ++ cause.message

/-- Writes a value as a JSON file. -/
def writeJson (d : Disk) (path : String) (j : Json) : Except PathError Disk :=
  d.write path (Bytes.ofString (j.pretty ++ "\n"))

/-- Writes the report files; those written before a failure stay. -/
def writeFiles (dir : String) : List (FileReport × String) → Disk → Except ReportWriteError Unit × Disk
  | [], d => (.ok (), d)
  | (f, name) :: rest, d =>
    let target := Path.join dir name
    match d.mkdirAll (Path.dir target) with
    | .error e => (.error (.directoryFor f.path e), d)
    | .ok d =>
      match writeJson d target f.toJson with
      | .error e => (.error (.file f.path e), d)
      | .ok d => writeFiles dir rest d

/-- Writes the metadata file. It is made before its text is, so a moment that is not written leaves it
empty. -/
def writeMetadata (d : Disk) (path : String) (m : Metadata) : Except ReportWriteError Unit × Disk :=
  match m.generatedAt.fault? with
  | none =>
    match writeJson d path m.toJson with
    | .error e => (.error (.metadata e), d)
    | .ok d => (.ok (), d)
  | some fault =>
    match d.write path [] with
    | .error e => (.error (.metadata e), d)
    | .ok d => (.error (.moment fault), d)

/-- The index entries of reports under their names. -/
def indexEntries (named : List (FileReport × String)) : List IndexEntry :=
  named.map fun (f, name) => ⟨f.path, name, f.problems.items.length⟩

/-- Writes a report below a directory, which is made. The counts of the metadata come from the report:
the number of files is set, and the files with problems are added. -/
def writeReport (d : Disk) (dir : String) (r : ProjectReport) (m : Metadata) :
    Except ReportWriteError Unit × Disk :=
  match d.mkdirAll (Path.join dir filesDir) with
  | .error e => (.error (.directory e), d)
  | .ok d =>
    let files := r.files.items
    let named := files.zip (assignNames [] (files.map (·.path)))
    match writeFiles dir named d with
    | (.error e, d) => (.error e, d)
    | (.ok (), d) =>
      let m := { m with
        filesAnalyzed := files.length
        filesWithProblems := m.filesWithProblems + files.countP fun (f : FileReport) => !f.problems.items.isEmpty }
      match writeMetadata d (Path.join dir metadataFile) m with
      | (.error e, d) => (.error e, d)
      | (.ok (), d) =>
        let index : ReportIndex := ⟨r.summary, some r.warnings.items, some (indexEntries named)⟩
        match writeJson d (Path.join dir summaryFile) index.toJson with
        | .error e => (.error (.summary e), d)
        | .ok d => (.ok (), d)

/-! ## Reading -/

/-- Why a file of a report could not be loaded. -/
inductive ReportLoadError where
  | path (cause : PathError)
  /-- The file does not start with a JSON value of the right form. -/
  | json
  deriving DecidableEq, Repr

/-- What is said of a file that does not hold what it should. -/
def malformedJson : String := "malformed JSON"

/-- The text of a load error. -/
def ReportLoadError.message : ReportLoadError → String
  | path cause => cause.message
  | json => malformedJson

/-- Loads the first JSON value of a file; what follows it is not looked at. -/
def loadJson {α : Type} (d : Disk) (decode : Json → Option α) (path : String) : Except ReportLoadError α :=
  match d.read path with
  | .error e => .error (.path e)
  | .ok t =>
    match (Json.readFront? (Utf8.decodeLossy t).toList).bind fun p => decode p.1 with
    | some a => .ok a
    | none => .error .json

/-- Loads the metadata and the index of a report. -/
def loadIndex (d : Disk) (dir : String) : Except ReportLoadError (Metadata × ReportIndex) := do
  let m ← loadJson d Metadata.ofJson? (Path.join dir metadataFile)
  let r ← loadJson d ReportIndex.ofJson? (Path.join dir summaryFile)
  return (m, r)

/-- Loads the report of an index entry. -/
def loadReport (d : Disk) (dir : String) (e : IndexEntry) : Except ReportLoadError FileReport :=
  loadJson d FileReport.ofJson? (Path.join dir e.report)

/-! ## Faults -/

/-- What is wrong with one of the two files at the top, which hold one JSON value each. -/
def topFileFault? (d : Disk) (dir name : String) : Option String :=
  match d.read (Path.join dir name) with
  | .error e => if e.cause = .noEntry then some (name ++ ": file not found") else some (name ++ ": " ++ e.message)
  | .ok t =>
    match Json.read? t with
    | some _ => none
    | none => some (name ++ ": invalid JSON: " ++ malformedJson)

/-- What is wrong with the report of an index entry. -/
def indexFault? (d : Disk) (dir : String) (e : IndexEntry) : Option String :=
  match loadReport d dir e with
  | .error cause => some (e.report ++ ": " ++ cause.message)
  | .ok r =>
    if r.path = e.path then none
    else some (e.report ++ ": path " ++ quoted r.path ++ " does not match index entry " ++ quoted e.path)

/-- What is wrong with a report directory; a complete report has no faults. -/
def reportFaults (d : Disk) (dir : String) : List String :=
  let top := [metadataFile, summaryFile].filterMap (topFileFault? d dir)
  if !top.isEmpty then top
  else
    match loadIndex d dir with
    | .error e => [summaryFile ++ ": " ++ e.message]
    | .ok (_, r) => r.files.items.filterMap (indexFault? d dir)

end ScriptSplit
