import ScriptSplit.Config.Shape
import ScriptSplit.Number.Word64

/-!
# Laying a file over the defaults

* `Config.overlay?`: the settings of a file that has the right shape; what it does not set keeps its
  default, and a list that it sets replaces the default list.
-/

namespace ScriptSplit

/-- A number in 64 bits; those out of range wrap around, and fractions beyond all of them become the
least. -/
def Datum.word? : Datum → Option Int
  | int n => some (Word64.wrap n)
  | real d => d.nearestInt?.map fun n => if Word64.fits n then n else Word64.least
  | _ => none

/-- The text of a value. -/
def Datum.text? : Datum → Option String
  | text s => some s
  | _ => none

/-- The truth of a value. -/
def Datum.bool? : Datum → Option Bool
  | bool b => some b
  | _ => none

/-- The texts of a list. -/
def Datum.names? : Datum → Option (Listing String)
  | list items => (items.mapM Datum.text?).map some
  | _ => none

/-- The value of a setting: that of the file, if it has one. -/
def setting? {α : Type} (read : Datum → Option α) (group : Option Datum) (key : String) (default : α) :
    Option α :=
  match group.bind (Datum.field? key) with
  | some d => read d
  | none => some default

/-- One rule of the module table. -/
def ModuleRule.ofDatum? (d : Datum) : Option ModuleRule := do
  let tag ← (d.field? "tag").bind Datum.text?
  let keywords ← (d.field? "keywords").bind Datum.names?
  some ⟨tag, keywords⟩

/-- The module table. -/
def Datum.modules? : Datum → Option (Listing ModuleRule)
  | list items => (items.mapM ModuleRule.ofDatum?).map some
  | _ => none

namespace Config

/-- The settings of a file laid over others. -/
def overlay? (base : Config) (d : Datum) : Option Config := do
  let thresholds := d.field? "thresholds"
  let symbols := d.field? "symbols"
  let classification := d.field? "classification"
  let scan := d.field? "scan"
  let exclude := d.field? "exclude"
  let cache := d.field? "cache"
  let output := d.field? "output"
  some
    { thresholds :=
        { dependencyCount := ← setting? Datum.word? thresholds "dependency_count" base.thresholds.dependencyCount
          dependentCount := ← setting? Datum.word? thresholds "dependent_count" base.thresholds.dependentCount
          complexity := ← setting? Datum.word? thresholds "complexity" base.thresholds.complexity }
      symbols :=
        { globals := ← setting? Datum.names? symbols "globals" base.symbols.globals
          platformAPI := ← setting? Datum.names? symbols "platform_api" base.symbols.platformAPI }
      modules := ← setting? Datum.modules? (some d) "modules" base.modules
      classification :=
        { defaultModule :=
            ← setting? Datum.text? classification "default_module" base.classification.defaultModule
          fallbackPolicy :=
            ← setting? Datum.text? classification "fallback_policy" base.classification.fallbackPolicy }
      scan :=
        { extensions := ← setting? Datum.names? scan "extensions" base.scan.extensions
          includeGlobs := ← setting? Datum.names? scan "include" base.scan.includeGlobs
          maxFileSize := ← setting? Datum.word? scan "max_file_size" base.scan.maxFileSize
          workers := ← setting? Datum.word? scan "workers" base.scan.workers }
      exclude :=
        { dirs := ← setting? Datum.names? exclude "dirs" base.exclude.dirs
          patterns := ← setting? Datum.names? exclude "patterns" base.exclude.patterns
          gitignore := ← setting? Datum.bool? exclude "gitignore" base.exclude.gitignore }
      cache :=
        { enabled := ← setting? Datum.bool? cache "enabled" base.cache.enabled
          dir := ← setting? Datum.text? cache "dir" base.cache.dir
          ttl := ← setting? Datum.word? cache "ttl" base.cache.ttl }
      output :=
        { format := ← setting? Datum.text? output "format" base.output.format
          color := ← setting? Datum.bool? output "color" base.output.color } }

end Config

end ScriptSplit
