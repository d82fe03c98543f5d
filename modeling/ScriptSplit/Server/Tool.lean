import ScriptSplit.Analysis.Project
import ScriptSplit.Config.Loading
import ScriptSplit.Server.Description
import ScriptSplit.Server.Prompt
import ScriptSplit.View.Output

/-!
# Tools of the server

* `Server`: the settings that tools use.
* `Tool`: the three tools, with their names and arguments.
* `Server.call`: what a tool answers.
-/

namespace ScriptSplit

/-- A server. -/
structure Server where
  version : String
  config : Config
  /-- The settings hold for every project; otherwise a project's own file counts. -/
  isPinned : Bool

namespace Server

/-- The name of the server. -/
def name : String := "modsplit"

/-- A server of a version; without settings of its own it starts from the defaults. -/
def new (version : String) (config : Option Config) : Server :=
  ⟨if version = "" then "dev" else version, config.getD Config.default, config.isSome⟩

end Server

/-- The tools. -/
inductive Tool where
  | analyzeFile
  | analyzeProject
  | dependencyGraph
  deriving DecidableEq, Repr

namespace Tool

/-- The tools in the order of their names. -/
def all : List Tool := [analyzeFile, analyzeProject, dependencyGraph]

/-- The name of a tool. -/
def label : Tool → String
  | analyzeFile => "analyze_file"
  | analyzeProject => "analyze_project"
  | dependencyGraph => "dependency_graph"

/-- What a tool is for. -/
def description : Tool → String
  | analyzeFile => analyzeFileDescription
  | analyzeProject => analyzeProjectDescription
  | dependencyGraph => dependencyGraphDescription

/-- The tool of a name. -/
def ofLabel? (s : String) : Option Tool := all.find? (·.label == s)

/-- The arguments of a tool that are texts. -/
def textArguments : Tool → List String
  | analyzeFile => ["path", "content", "name", "format"]
  | analyzeProject => ["path", "format"]
  | dependencyGraph => ["path", "content", "name"]

/-- The arguments of a tool that are truth values. -/
def flagArguments : Tool → List String
  | analyzeProject => ["summary_only"]
  | _ => []

/-- The argument of a name has the right type. -/
def accepts (t : Tool) (argument : String × Json) : Bool :=
  match argument.2 with
  | .string _ => t.textArguments.contains argument.1
  | .bool _ => t.flagArguments.contains argument.1
  | _ => false

end Tool

/-- What a call comes to. -/
inductive ToolAnswer where
  /-- The call has no such tool, or wrong arguments. -/
  | refused
  /-- The result has no text in the wanted format. -/
  | unwritable
  | text (s : String)
  /-- A text that tells what went wrong. -/
  | fault (s : String)
  deriving DecidableEq, Repr

/-- The format of a tool's answer; the token-oriented notation where the name is unknown. -/
def toolFormat (name : String) : OutputFormat :=
  match OutputFormat.ofName name with
  | .text => .toon
  | f => f

/-- A view as the answer of a tool. -/
def viewAnswer (format : OutputFormat) (v : View) : ToolAnswer :=
  match format with
  | .markdown => .text v.markdown
  | _ =>
    match v.dataText format with
    | .ok s => .text s
    | .error _ => .unwritable

/-- The text of an argument; one that was not given is empty. -/
def textArgument (args : List (String × Json)) (name : String) : String :=
  match args.lookup name with
  | some (.string s) => s
  | _ => ""

namespace Server

/-- An analyser without a cache. -/
def analyzer (cfg : Config) (source : Source) : Analyzer := ⟨cfg, source, Cache.off⟩

/-- The report on one file: the content that was given, or else the file at the path. -/
def fileReport (s : Server) (d : Disk) (now : Int) (args : List (String × Json)) : Except String FileReport :=
  let content := textArgument args "content"
  let path := textArgument args "path"
  let name := textArgument args "name"
  let shown := if content = "" then path
    else if name ≠ "" then name
    else if path = "" then "inline.js" else path
  if shown = "" then .error "either path or content is required"
  else
    let source := if content = "" then Source.ofDisk d else Source.ofTexts [(shown, Bytes.ofString content)]
    let (r, _) := (analyzer s.config source).analyzeFiles false "" [shown] ⟨d, now, []⟩
    match r.files.items, r.warnings.items with
    | f :: _, _ => .ok f
    | [], w :: _ => .error (w.path ++ ": " ++ w.message)
    | [], [] => .error (shown ++ ": not analyzed")

/-- The settings for a project. -/
def projectConfig (s : Server) (d : Disk) (root : String) : Except ConfigError Config :=
  if s.isPinned then .ok s.config else (Config.find d "" root).map (·.config)

/-- The report on a project. -/
def projectReport (s : Server) (d : Disk) (now : Int) (root : String) : Except String ProjectReport :=
  match s.projectConfig d root with
  | .error e => .error e.message
  | .ok cfg =>
    match (analyzer cfg (Source.ofDisk d)).analyzeTree false root ⟨d, now, []⟩ with
    | .error e => .error ("scan " ++ root ++ ": " ++ e.message)
    | .ok (r, _) => if r.summary.totalFiles = 0 then .error "no source files found" else .ok r

/-- Runs a tool with arguments of the right types. -/
def run (s : Server) (d : Disk) (now : Int) (t : Tool) (args : List (String × Json)) : ToolAnswer :=
  let format := toolFormat (textArgument args "format")
  let answer := fun {α : Type} (r : Except String α) (render : α → ToolAnswer) =>
    match r with
    | .ok a => render a
    | .error e => ToolAnswer.fault ("Error: " ++ e)
  match t with
  | .analyzeFile => answer (s.fileReport d now args) fun r => viewAnswer format (.file r)
  | .dependencyGraph => answer (s.fileReport d now args) fun r => .text (mermaid r)
  | .analyzeProject =>
    let path := textArgument args "path"
    let summaryOnly := args.lookup "summary_only" matches some (.bool true)
    answer (s.projectReport d now (if path = "" then "." else path)) fun r =>
      viewAnswer format (.project (if summaryOnly then { r with files := some [] } else r) false)

/-- What the tool of a name answers. Unknown arguments and arguments of a wrong type are refused. -/
def call (s : Server) (d : Disk) (now : Int) (tool : String) (args : List (String × Json)) : ToolAnswer :=
  match Tool.ofLabel? tool with
  | none => .refused
  | some t => if args.all t.accepts then s.run d now t args else .refused

end Server

end ScriptSplit
