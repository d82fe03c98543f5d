import ScriptSplit.Command.Flag

/-!
# Commands

* `Action`: what the program can do.
* `MenuItem`: a name for an action, with flags and further commands below it.
* `Request`: what arguments ask for.
* `resolve`: the request of arguments.
-/

namespace ScriptSplit.Command

/-- What the program can do. -/
inductive Action where
  | analyze
  | graph
  | createSettings
  | validateSettings
  | showSettings
  | showSchema
  | cacheStats
  | clearCache
  | validateReport
  | serve
  | showManifest
  deriving DecidableEq, Repr

/-- A command. One without an action shows its help. -/
structure MenuItem where
  names : List String
  usage : String
  flags : List Flag
  action : Option Action
  subcommands : List MenuItem

/-- The command has a name. -/
def MenuItem.hasName (c : MenuItem) (name : String) : Bool := c.names.contains name

/-- A command without others below it. -/
def MenuItem.leaf (names : List String) (usage : String) (flags : List Flag) (action : Action) : MenuItem :=
  ⟨names, usage, flags, some action, []⟩

/-! ## The menu -/

/-- The flags of commands that print a report. -/
def outputFlags : List Flag :=
  [.text ["format", "f"] "Output format: text, json, markdown, toon, yaml (default from config)",
   .text ["output", "o"] "Write output to file",
   .switch ["no-cache"] "Disable caching",
   .switch ["no-color"] "Disable colored output"]

/-- Analyses files and directories. -/
def analyzeCommand : MenuItem :=
  .leaf ["analyze", "a"] "Analyze function dependencies and suggest modules"
    (outputFlags ++
      [.switch ["detailed"] "Include every file's report in project output",
       .text ["out-dir"] "Also write per-file JSON reports and summary.json to this directory",
       .number ["workers"] "Number of files analyzed in parallel (default from config, 0 = CPUs)"])
    .analyze

/-- Draws the call graph of a file. -/
def graphCommand : MenuItem :=
  .leaf ["graph", "g"] "Render a file's call graph as a Mermaid diagram grouped by module" outputFlags .graph

/-- Creates a settings file. -/
def initCommand : MenuItem :=
  .leaf ["init"] "Initialize a new modsplit configuration file"
    [.text ["output", "o"] "Output file path", .switch ["force"] "Overwrite existing config file"]
    .createSettings

/-- Looks at settings. -/
def configCommand : MenuItem :=
  ⟨["config"], "Configuration management commands", [], none,
    [.leaf ["validate"] "Validate a configuration file" [] .validateSettings,
     .leaf ["show"] "Show the effective configuration" [] .showSettings,
     .leaf ["schema"] "Print the JSON Schema for configuration files" [] .showSchema]⟩

/-- Looks at the cache. -/
def cacheCommand : MenuItem :=
  ⟨["cache"], "Inspect or clear the per-file report cache", [], none,
    [.leaf ["stats"] "Show cache statistics" [] .cacheStats,
     .leaf ["clear"] "Delete every cached report" [] .clearCache]⟩

/-- Looks at report directories. -/
def reportCommand : MenuItem :=
  ⟨["report"], "Work with report directories written by analyze --out-dir", [], none,
    [.leaf ["validate"] "Check that a report directory is complete and readable"
      [⟨["data", "d"], .text, "Report directory", true⟩] .validateReport]⟩

/-- Starts the server. -/
def serverCommand : MenuItem :=
  ⟨["mcp"], "Start MCP (Model Context Protocol) server for LLM tool integration", [], some .serve,
    [.leaf ["manifest"] "Print the MCP registry manifest (server.json)" [] .showManifest]⟩

/-- The whole program. -/
def program : MenuItem :=
  ⟨["modsplit"], "Function dependency analysis for JavaScript and HTML",
    [.text ["config", "c"] "Path to config file (TOML, YAML, or JSON)",
     .switch ["verbose"] "Enable verbose output",
     .switch ["quiet"] "Hide progress bars",
     .text ["pprof"] "Enable pprof profiling and write to specified prefix"],
    none,
    [analyzeCommand, graphCommand, initCommand, configCommand, cacheCommand, reportCommand, serverCommand]⟩

/-- The command that shows help, present at every level. -/
def helpCommand : MenuItem :=
  ⟨["help", "h"], "Shows a list of commands or help for one command", [], none, []⟩

/-- The flag that shows help, present at every level. -/
def helpFlag : Flag := .switch ["help", "h"] "show help"

/-- The flag that shows the version. -/
def versionFlag : Flag := .switch ["version", "v"] "print the version"

/-! ## Help -/

/-- The help screen of a command. -/
def MenuItem.helpText (c : MenuItem) : String :=
  let name := c.names.headD ""
  let commands := (c.subcommands ++ [helpCommand]).map fun s =>
    "   " ++ ", ".intercalate s.names ++ "  " ++ s.usage ++ "\n"
  let flags := (c.flags ++ [helpFlag]).map fun f =>
    "   " ++ ", ".intercalate (f.names.map fun n => (if n.length = 1 then "-" else "--") ++ n) ++ "  " ++
      f.usage ++ "\n"
  "NAME:\n   " ++ name ++ " - " ++ c.usage ++ "\n\nUSAGE:\n   " ++ name ++
    " [options] [arguments...]\n\nCOMMANDS:\n" ++ String.join commands ++ "\nOPTIONS:\n" ++ String.join flags

/-! ## Requests -/

/-- What arguments ask for. -/
inductive Request where
  /-- The help screen of a command. -/
  | help (command : MenuItem)
  | version
  /-- The flags of a command are misused. -/
  | misuse (command : MenuItem) (error : FlagError)
  /-- There is no command to show help for; it may be told twice. -/
  | noTopic (topic : String) (told : Bool)
  /-- A flag is missing; the help screen of a command may be shown. -/
  | missingFlag (flag : String) (shown : Option MenuItem)
  | act (action : Action) (flags : Flags) (args : List String)

/-- The command below another that has a name. -/
def MenuItem.find? (c : MenuItem) (name : String) : Option MenuItem :=
  (c.subcommands ++ [helpCommand]).find? (·.hasName name)

/-- Help for a command, or for the command below it that the first argument names. -/
def helpFor (c : MenuItem) (args : List String) (told : Bool) : Request :=
  match args with
  | [] => .help c
  | topic :: _ =>
    if topic = "" then .help c
    else
      match c.find? topic with
      | some sub => .help sub
      | none => .noTopic topic told

/-- The help command below a command. Below it stands the help command again. The arguments get fewer
with each step, so their number is fuel enough. -/
def resolveHelp : (fuel : Nat) → (parent : MenuItem) → List String → Request
  | 0, parent, _ => .help parent
  | fuel + 1, parent, args =>
    match parseFlags [helpFlag] args with
    | .error e => .misuse helpCommand e
    | .ok (flags, rest) =>
      if flags.isOn "help" then helpFor parent rest false
      else
        match rest with
        | name :: more =>
          if helpCommand.hasName name then resolveHelp fuel helpCommand more else helpFor parent rest true
        | [] => .help parent

/-- The first required flag that is not set. -/
def missingFlag? (c : MenuItem) (flags : Flags) : Option String :=
  (c.flags.find? fun f => f.required && !flags.isSet f.name).map (·.name)

/-- The command that a help request shows. -/
def Request.shownHelp? : Request → Option MenuItem
  | help c => some c
  | _ => none

/-- The request of a command whose flags are parsed, given how the commands below it are resolved. -/
def resolveParsed (below : MenuItem → Flags → List String → Request) (fuel : Nat) (c : MenuItem)
    (own flags : Flags) (rest : List String) : Request :=
  match missingFlag? c own with
  | some name => .missingFlag name (helpFor c rest false).shownHelp?
  | none =>
    let act := match c.action with
      | some a => Request.act a flags rest
      | none => helpFor c rest true
    match rest with
    | [] => act
    | name :: more =>
      match c.subcommands.find? (·.hasName name) with
      | some sub => below sub flags more
      | none => if helpCommand.hasName name then resolveHelp fuel c more else act

/-- The request of a command below the whole program. The arguments get fewer with each step, so their
number is fuel enough. -/
def resolveCommand : (fuel : Nat) → MenuItem → (outer : Flags) → List String → Request
  | 0, c, _, _ => .help c
  | fuel + 1, c, outer, args =>
    match parseFlags (c.flags ++ [helpFlag]) args with
    | .error e => .misuse c e
    | .ok (own, rest) =>
      if own.isOn "help" then helpFor c rest false
      else resolveParsed (resolveCommand fuel) fuel c own (own.onTopOf outer) rest

/-- What arguments ask for, and the place for profiles that are wanted around it. -/
structure Resolved where
  profile : Option String
  request : Request

/-- The request of the arguments of the program. A settings path from the environment counts where the
arguments give none. -/
def resolve (envConfig : Option String) (args : List String) : Resolved :=
  match parseFlags (program.flags ++ [helpFlag, versionFlag]) args with
  | .error e => ⟨none, .misuse program e⟩
  | .ok (own, rest) =>
    if own.isOn "help" then ⟨none, helpFor program rest false⟩
    else if own.isOn "version" then ⟨none, .version⟩
    else
      let flags := own.withDefault "config" envConfig
      let profile := flags.text "pprof"
      let fuel := args.length + 1
      ⟨if profile = "" then none else some profile,
        resolveParsed (resolveCommand fuel) fuel program flags flags rest⟩

end ScriptSplit.Command
