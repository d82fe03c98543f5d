import ScriptSplit.Analysis.Project
import ScriptSplit.Command.Session
import ScriptSplit.Config.Schema
import ScriptSplit.Config.Writing
import ScriptSplit.Server.Manifest
import ScriptSplit.Server.Tool
import ScriptSplit.View.Message
import ScriptSplit.View.Progress

/-!
# Actions

* `runAnalyze`, `runGraph`: reports on files.
* `createSettings`, `validateSettings`, `showSettings`: settings files.
* `showCacheStats`, `clearCache`: the cache.
* `validateReport`: report directories.
* `openServer`: the server with the settings that were found.
* `runCommand`: a whole call of the program.
-/

namespace ScriptSplit.Command

/-- The version of the program. -/
def programVersion : String := "dev"

/-- The settings that the flags name, or those of the working directory. -/
def loadSettings (f : Flags) : Work Config.Loaded := do
  match Config.find (← theDisk) (f.text "config") "." with
  | .error e => throw (.config e)
  | .ok loaded =>
    if f.isOn "verbose" && loaded.source ≠ "" then tell ("Using config: " ++ loaded.source ++ "\n")
    return loaded

/-- Prints events, if all details are wanted. -/
def logEvents (f : Flags) (events : List LogEvent) : Work Unit :=
  if f.isOn "verbose" then tell (String.join (events.map LogEvent.line)) else return ()

/-! ## Reports -/

/-- The format of a report. -/
def outputFormat (f : Flags) (cfg : Config) : OutputFormat :=
  .ofName (if f.text "format" = "" then cfg.output.format else f.text "format")

/-- Makes the file for a report, if one is wanted. -/
def openOutput (f : Flags) : Work Unit := do
  let path := f.text "output"
  if path = "" then return () else orFail .disk ((← theDisk).write path [])

/-- Prints a report, or writes it to the file that is wanted. -/
def showView (f : Flags) (cfg : Config) (v : View) : Work Unit := do
  match v.render (outputFormat f cfg) .plain with
  | .error e => throw (.output e)
  | .ok s =>
    let path := f.text "output"
    if path = "" then say s else orFail .disk ((← theDisk).write path (Bytes.ofString s))

/-- The cache of a run. A cache that cannot be made is left out. -/
def runCache (f : Flags) (cfg : Config) : Work Cache := do
  if !cfg.cache.enabled || f.isOn "no-cache" then return Cache.off
  else
    match Cache.create (← theDisk) cfg.cache.dir cfg.cache.ttl with
    | .ok (c, d) =>
      setDisk d
      return c
    | .error e =>
      say ("Cache disabled: " ++ e.message ++ "\n")
      return Cache.off

/-- The first report, or the first warning as an error. -/
def onlyReport (r : ProjectReport) : Work FileReport :=
  match r.files.items, r.warnings.items with
  | file :: _, _ => return file
  | [], w :: _ => throw (.file w.path w.message)
  | [], [] => throw (.file "" "")

/-- The facts about the making of a report. -/
def reportMetadata (root : String) (loaded : Config.Loaded) (cfg : Config) (now : Int) : Metadata where
  root := root
  generatedAt := Moment.ofNanos now
  version := programVersion
  configSource := loaded.source
  fingerprint := cfg.fingerprint
  filesAnalyzed := 0
  filesWithProblems := 0

/-- Writes a report directory, if one is wanted. -/
def keepReport (f : Flags) (r : ProjectReport) (m : Metadata) (bar : Progress) (ticks : Nat) : Work Unit := do
  let dir := f.text "out-dir"
  if dir = "" then return ()
  else
    let (result, d) := writeReport (← theDisk) dir r m
    setDisk d
    match result with
    | .ok () => return ()
    | .error e =>
      tell (bar.finish ticks ++ bar.errorLine e.message)
      throw (.report e)

/-- Analyses the files that were collected and shows the report. -/
def analyzeCollected (f : Flags) (loaded : Config.Loaded) (cfg : Config) (c : Collected) : Work Unit := do
  let bar := Progress.bar "Analyzing dependencies..." c.files.length (f.isOn "quiet" || c.isSingle)
  let ticks := c.files.length
  let cache ← runCache f cfg
  let w ← get
  let analyzer : Analyzer := ⟨cfg, Source.ofDisk w.disk, cache⟩
  let (outcomes, s) := analyzer.outcomes false c.root c.files ⟨w.disk, w.now, []⟩
  let r := ProjectReport.ofOutcomes c.root outcomes
  setDisk s.disk
  logEvents f s.events
  tell (bar.afterTicks ticks)
  logEvents f (failureEvents c.root outcomes)
  keepReport f r (reportMetadata c.root loaded cfg w.now) bar ticks
  tell (bar.finish ticks)
  openOutput f
  if c.isSingle then showView f cfg (.file (← onlyReport r))
  else
    showView f cfg (.project r (f.isOn "detailed"))
    if outputFormat f cfg = .text then
      for w in r.warnings.items do
        tell (messageLine .plain .warning "%s [%s] %s" [w.path, w.kind.label, w.message])
  if f.text "out-dir" ≠ "" then
    tell (messageLine .plain .success "Report data written to %s" [f.text "out-dir"])

/-- Analyses files and directories; without any, the working directory. -/
def runAnalyze (f : Flags) (args : List String) : Work Unit := do
  let loaded ← loadSettings f
  let cfg := match f.number? "workers" with
    | some n => { loaded.config with scan := { loaded.config.scan with workers := n } }
    | none => loaded.config
  let scanning := Progress.spinner "Scanning files..." (f.isOn "quiet")
  match collectFiles cfg (← theDisk) (if args.isEmpty then ["."] else args) with
  | .error e =>
    tell (scanning.errorLine e.message)
    throw (.collect e)
  | .ok c =>
    if c.files.isEmpty then say "No source files found\n" else analyzeCollected f loaded cfg c

/-- Draws the call graph of one file. -/
def runGraph (f : Flags) (args : List String) : Work Unit := do
  match args with
  | [path] =>
    let loaded ← loadSettings f
    let w ← get
    let analyzer : Analyzer := ⟨loaded.config, Source.ofDisk w.disk, Cache.off⟩
    let (r, s) := analyzer.analyzeFiles false (Path.dir path) [path] ⟨w.disk, w.now, []⟩
    logEvents f s.events
    let file ← onlyReport r
    openOutput f
    showView f loaded.config (.mermaid file)
  | _ => throw .notOneFile

/-! ## Settings -/

/-- Creates a settings file with the defaults. -/
def createSettings (f : Flags) : Work Unit := do
  let path := if f.isSet "output" then f.text "output" else "modsplit.toml"
  if ((← theDisk).stat path).isOk && !f.isOn "force" then throw (.settingsExist path)
  let dir := Path.dir path
  if dir ≠ "." then orFail (.settingsDirectory dir) ((← theDisk).mkdirAll dir)
  orFail .settingsFile ((← theDisk).write path (Bytes.ofString initialFileText))
  say ("Created " ++ path ++ "\nEdit this file to tune thresholds and the module table.\n")

/-- Checks the settings. -/
def validateSettings (f : Flags) : Work Unit := do
  match Config.find (← theDisk) (f.text "config") "." with
  | .error e =>
    say ("Configuration validation failed:\n  - " ++ e.message ++ "\n")
    throw (.config e)
  | .ok loaded =>
    if loaded.source = "" then say "No config file found. Default configuration is valid.\n"
    else say ("Configuration valid: " ++ loaded.source ++ "\n")

/-- Prints the settings in force. -/
def showSettings (f : Flags) : Work Unit := do
  let loaded ← loadSettings f
  say (loaded.config.shownText loaded.source)

/-! ## Cache -/

/-- The cache of the settings, even where it is switched off. -/
def openCache (f : Flags) : Work Cache := do
  let loaded ← loadSettings f
  match Cache.create (← theDisk) loaded.config.cache.dir loaded.config.cache.ttl with
  | .error e => throw (.disk e)
  | .ok (c, d) =>
    setDisk d
    return c

/-- An age in seconds, rounded to the nearest. -/
def ageText (nanos : Int) : String := Moment.spanText ((nanos + 500000000) / 1000000000).toNat

/-- Prints the number, the size and the ages of the entries. -/
def showCacheStats (f : Flags) : Work Unit := do
  let c ← openCache f
  let w ← get
  let stats := c.stats w.disk
  say ("Directory: " ++ c.dir ++ "\nEntries:   " ++ toString stats.entries ++ "\nSize:      " ++
    toString stats.totalSize ++ " bytes\n")
  if stats.entries ≠ 0 then
    let (oldest, newest) := stats.ages w.now
    say ("Oldest:    " ++ ageText oldest ++ "\nNewest:    " ++ ageText newest ++ "\n")

/-- Removes all entries. -/
def clearCache (f : Flags) : Work Unit := do
  let c ← openCache f
  match c.tryClear (← theDisk) with
  | .error e => throw (.clearCache e)
  | .ok d =>
    setDisk d
    say ("Cache cleared: " ++ c.dir ++ "\n")

/-! ## Report directories -/

/-- Checks a report directory. -/
def validateReport (f : Flags) : Work Unit := do
  let dir := f.text "data"
  let d ← theDisk
  let faults := reportFaults d dir
  if faults.isEmpty then
    match loadIndex d dir with
    | .error e => throw (.load e)
    | .ok (m, r) =>
      say (messageLine .plain .success "Report valid: %s" [dir])
      say ("  " ++ toString r.files.items.length ++ " files, " ++ toString r.summary.totalFunctions ++
        " functions, " ++ toString r.summary.totalProblems ++ " problems (generated " ++
        m.generatedAt.minuteText ++ " by " ++ m.version ++ ")\n")
  else
    say (messageLine .plain .error "Report validation failed:" [])
    say (String.join (faults.map fun p => "  - " ++ p ++ "\n"))
    throw (.reportFaults faults.length dir)

/-! ## Server -/

/-- The server with the settings that were found. Without a settings file, projects use their own. -/
def openServer (f : Flags) : Work Server := do
  let loaded ← loadSettings f
  return Server.new programVersion (if loaded.source = "" then none else some loaded.config)

/-! ## Calls -/

/-- Carries out an action. -/
def runAction (a : Action) (f : Flags) (args : List String) : Work Unit :=
  match a with
  | .analyze => runAnalyze f args
  | .graph => runGraph f args
  | .createSettings => createSettings f
  | .validateSettings => validateSettings f
  | .showSettings => showSettings f
  | .showSchema => say (schemaText ++ "\n")
  | .cacheStats => showCacheStats f
  | .clearCache => clearCache f
  | .validateReport => validateReport f
  | .serve => do
    let _ ← openServer f
    return ()
  | .showManifest => say (manifestText programVersion ++ "\n")

/-- Carries out a request. -/
def runRequest : Request → Work Unit
  | .help c => say c.helpText
  | .version => say ("modsplit version " ++ programVersion ++ "\n")
  | .misuse c e => do
    say ("Incorrect Usage: " ++ e.message ++ "\n\n" ++ c.helpText)
    throw (.misuse e)
  | .noTopic topic told => do
    let e := CommandError.noTopic topic
    if told then tell (e.message ++ "\n")
    throw e
  | .missingFlag name shown => do
    if let some c := shown then say c.helpText
    throw (.missingFlag name)
  | .act a f args => runAction a f args

/-- The error that a step ends with, if any. -/
def errorOf (work : Work Unit) : Work (Option CommandError) := do
  try
    work
    return none
  catch e => return some e

/-- Makes an empty profile. -/
def makeProfile (kind path : String) : Work Unit := do orFail (.profile kind) ((← theDisk).write path [])

/-- Makes profiles around a step. The second one is made even if the step fails. -/
def profiled (base : String) (work : Work Unit) : Work Unit := do
  let cpu := base ++ ".cpu.pprof"
  let memory := base ++ ".mem.pprof"
  let refused ← errorOf (makeProfile "CPU" cpu)
  let failed ← match refused with
    | some e => pure (some e)
    | none => errorOf work
  if refused.isNone then say ("CPU profile written to " ++ cpu ++ "\n")
  let last ← errorOf (makeProfile "memory" memory)
  if last.isNone then say ("Memory profile written to " ++ memory ++ "\n")
  match failed, last with
  | none, none => return ()
  | some e, none => throw e
  | none, some e => throw e
  | some e, some e' => throw (.both e e')

/-- A whole call of the program: what it leaves behind, and the error that it ends with. -/
def runCommand (envConfig : Option String) (args : List String) (w : Session) : Option CommandError × Session :=
  let r := resolve envConfig args
  let work := match r.profile with
    | none => runRequest r.request
    | some base => profiled base (runRequest r.request)
  match work w with
  | (.ok (), w) => (none, w)
  | (.error e, w) => (some e, w)

end ScriptSplit.Command
