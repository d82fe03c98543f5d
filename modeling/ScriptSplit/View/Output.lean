import ScriptSplit.Format.Toon
import ScriptSplit.Format.Json.Writer
import ScriptSplit.Format.Yaml.Writer
import ScriptSplit.Report.Encoding
import ScriptSplit.View.Mermaid
import ScriptSplit.View.ProjectView

/-!
# Output

* `OutputFormat`: the five formats.
* `View`: what can be shown; `View.render`: its text in a format.
-/

namespace ScriptSplit

/-- The formats of output. -/
inductive OutputFormat where
  | text
  | json
  | markdown
  | toon
  | yaml
  deriving DecidableEq, Repr

namespace OutputFormat

/-- The name of a format. -/
def label : OutputFormat → String
  | text => "text"
  | json => "json"
  | markdown => "markdown"
  | toon => "toon"
  | yaml => "yaml"

/-- The format of a name, whatever its case; text where the name is unknown. -/
def ofName (name : String) : OutputFormat :=
  match lowerCase name with
  | "json" => json
  | "markdown" => markdown
  | "md" => markdown
  | "toon" => toon
  | "yaml" => yaml
  | "yml" => yaml
  | _ => text

end OutputFormat

/-- What can be shown. -/
inductive View where
  | file (report : FileReport)
  | mermaid (report : FileReport)
  | project (report : ProjectReport) (detailed : Bool)
  | document (d : Document)

/-- Data that cannot be written in a format. -/
inductive OutputError where
  | yaml
  | toon
  deriving DecidableEq, Repr

/-- A file report with an empty list in place of each that was never filled in. -/
def FileReport.filled (r : FileReport) : FileReport :=
  { r with
    functions := some (r.functions.items.map fun f =>
      { f with dependencies := some f.dependencies.items, dependents := some f.dependents.items })
    modules := some ((r.modules.getD []).map fun p => (p.1, some p.2.items))
    dependencies := some ((r.dependencies.getD []).map fun p =>
      (p.1, { p.2 with dependencies := some p.2.dependencies.items, dependents := some p.2.dependents.items }))
    problems := some r.problems.items
    globalUsage := some r.globalUsage.items
    platformUsage := some r.platformUsage.items
    elementIds := some r.elementIds.items
    cycles := r.cycles.map fun c => some c.items }

/-- A project report with an empty list in place of each that was never filled in. -/
def ProjectReport.filled (r : ProjectReport) : ProjectReport :=
  { r with
    files := some (r.files.items.map FileReport.filled)
    summary := { r.summary with crossFileCalls := some r.summary.crossFileCalls.items }
    warnings := some r.warnings.items }

/-- The data of a flowchart. -/
def chartJson (r : FileReport) : Json :=
  .object [("mermaid", .string (mermaid r)), ("path", .string r.path)]

namespace View

/-- A view for readers. -/
def text (ink : Ink) : View → String
  | file r => (fileDocument ink r).text ink
  | mermaid r => ScriptSplit.mermaid r
  | project r detailed => (projectDocument ink detailed r).text ink
  | document d => d.text ink

/-- A view in markdown, without colours. -/
def markdown : View → String
  | file r => (fileDocument .plain r).markdown
  | mermaid r => "```mermaid\n" ++ ScriptSplit.mermaid r ++ "```\n"
  | project r detailed => (projectDocument .plain detailed r).markdown
  | document d => d.markdown

/-- The data of a view. -/
def toJson : View → Json
  | file r => r.toJson
  | mermaid r => chartJson r
  | project r _ => r.toJson
  | document d => d.toJson

/-- The data of a view in the token-oriented notation. -/
def toToon : View → Json
  | file r => r.filled.toJson
  | mermaid r => chartJson r
  | project r _ => r.filled.toJson
  | document d => d.toToon

end View

/-- A text that ends with a newline unless it is empty. -/
def endLine (s : String) : String := if s = "" || s.endsWith "\n" then s else s ++ "\n"

/-- Data as YAML. -/
def yamlText (j : Json) : Except OutputError String :=
  match Yaml.write? j with
  | some s => .ok s
  | none => .error .yaml

/-- Data in the token-oriented notation. -/
def toonText (j : Json) : Except OutputError String :=
  match Toon.write? j with
  | some s => .ok s
  | none => .error .toon

/-- The text of an output error. -/
def OutputError.message : OutputError → String
  | yaml => "yaml: control characters are not allowed"
  | toon => "control characters are not allowed"

/-- The data of a view in a format; for readers they are JSON. -/
def View.dataText (format : OutputFormat) (v : View) : Except OutputError String :=
  match format with
  | .yaml => yamlText v.toJson
  | .toon => toonText v.toToon
  | _ => .ok v.toJson.pretty

/-- The text of a view in a format. -/
def View.render (format : OutputFormat) (ink : Ink) (v : View) : Except OutputError String :=
  match format with
  | .markdown => .ok v.markdown
  | .text => .ok (v.text ink)
  | _ => (v.dataText format).map endLine

/-- The text of plain data in a format; for readers they are JSON. -/
def renderData (format : OutputFormat) (data : Json) : Except OutputError String :=
  match format with
  | .yaml => (yamlText data).map endLine
  | .toon => (toonText data).map endLine
  | .markdown => .ok ("```json\n" ++ data.pretty ++ "\n```\n")
  | .json => .ok (data.pretty ++ "\n")
  | .text => .ok (data.pretty ++ "\n")

end ScriptSplit
