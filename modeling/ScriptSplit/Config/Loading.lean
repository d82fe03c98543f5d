import ScriptSplit.Config.Overlay
import ScriptSplit.Disk.Tree
import ScriptSplit.Format.Json.Reader
import ScriptSplit.Format.Toml.Reader
import ScriptSplit.Format.Yaml.Reader
import ScriptSplit.Text.Case

/-!
# Loading settings

* `ConfigError`: why a file gives no settings.
* `Config.load`: the settings of one file.
* `Config.find`: the settings of the first file that is found, or the defaults.
-/

namespace ScriptSplit

/-- Why a file gives no settings. -/
inductive ConfigError where
  | unreadable (path : String) (cause : PathError)
  /-- The text breaks the rules of its format. -/
  | malformed (path : String)
  | misshapen (path : String) (violations : List String)
  | invalid (path : String) (faults : List SettingFault)
  deriving DecidableEq, Repr

/-- The text of an error. -/
def ConfigError.message : ConfigError → String
  | unreadable path cause => "invalid configuration: " ++ path ++ ": " ++ cause.message
  | malformed path => "invalid configuration: " ++ path ++ ": malformed document"
  | misshapen path violations => "invalid configuration: " ++ path ++ ": " ++ "\n".intercalate violations
  | invalid path faults => path ++ ": " ++ faultsMessage faults

/-- The formats of settings files. -/
inductive ConfigFormat where
  | toml
  | yaml
  | json
  deriving DecidableEq, Repr

/-- The format of a file goes by its extension, whatever its case. -/
def ConfigFormat.ofPath (path : String) : ConfigFormat :=
  match lowerCase (Path.ext path) with
  | ".yaml" => yaml
  | ".yml" => yaml
  | ".json" => json
  | _ => toml

/-- The table that a JSON text says. -/
def jsonTable? (t : Bytes) : Option Datum := do
  match ← (Json.read? t).bind Datum.ofJson? with
  | .table fields => some (.table fields)
  | .null => some (.table [])
  | _ => none

/-- The table that a text says. -/
def ConfigFormat.read? (f : ConfigFormat) (t : Bytes) : Option Datum := do
  let d ← match f with
    | toml => Toml.read? t
    | yaml => Yaml.read? t
    | json => jsonTable? t
  if d.isFinite then some d else none

namespace Config

/-- The settings of one file over the defaults. -/
def load (disk : Disk) (path : String) : Except ConfigError Config :=
  match disk.read (Path.clean path) with
  | .error e => .error (.unreadable path e)
  | .ok content =>
    match (ConfigFormat.ofPath path).read? content with
    | none => .error (.malformed path)
    | some d =>
      match shapeViolations d with
      | v :: vs => .error (.misshapen path (v :: vs))
      | [] =>
        match Config.default.overlay? d with
        | none => .error (.malformed path)
        | some cfg => if cfg.faults.isEmpty then .ok cfg else .error (.invalid path cfg.faults)

/-- The names of settings files, the first that is found wins. -/
def fileNames : List String :=
  ["modsplit.toml", "modsplit.yaml", "modsplit.yml", "modsplit.json",
   ".modsplit.toml", ".modsplit.yaml", ".modsplit.yml", ".modsplit.json"]

/-- The paths of settings files for a directory: in it, and in its directory `.modsplit`. -/
def searchPaths (base : String) : List String :=
  [base, Path.join base ".modsplit"].flatMap fun dir => fileNames.map (Path.join dir)

/-- Settings and the path of the file that they came from, which is empty for the defaults. -/
structure Loaded where
  config : Config
  source : String

/-- The settings of the file at a path, or else of the first file that is found for a directory. A file
that is there and gives no settings is an error. -/
def find (disk : Disk) (path base : String) : Except ConfigError Loaded :=
  if path ≠ "" then (load disk path).map fun cfg => ⟨cfg, path⟩
  else
    match (searchPaths base).find? fun p => (disk.stat p).isOk with
    | some p => (load disk p).map fun cfg => ⟨cfg, p⟩
    | none => .ok ⟨Config.default, ""⟩

end Config

end ScriptSplit
