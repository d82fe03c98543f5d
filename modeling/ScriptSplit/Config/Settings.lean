import ScriptSplit.Registry.Function

/-!
# Settings

* `Config`: all settings, one structure a section.
* `Config.default`: the values that hold where no file sets others.
-/

namespace ScriptSplit

/-- A function is flagged when its measure exceeds the threshold. -/
structure Thresholds where
  dependencyCount : Int
  dependentCount : Int
  /-- Zero switches the complexity rule off. -/
  complexity : Int
  deriving DecidableEq, Repr

/-- The markers of global state and of the host platform. -/
structure Symbols where
  globals : Listing String
  platformAPI : Listing String
  deriving DecidableEq, Repr

/-- A module tag and the keywords that pull a function into it. -/
structure ModuleRule where
  tag : String
  keywords : Listing String
  deriving DecidableEq, Repr

/-- Where functions go that match no rule. -/
structure Classification where
  defaultModule : String
  fallbackPolicy : String
  deriving DecidableEq, Repr

/-- Which files are analysed, and how. -/
structure ScanSettings where
  extensions : Listing String
  /-- An optional list of globs, relative to the root. -/
  includeGlobs : Listing String
  /-- In bytes; zero means no limit. -/
  maxFileSize : Int
  /-- Zero means one for each processor. -/
  workers : Int
  deriving DecidableEq, Repr

/-- Which files are left out. -/
structure ExcludeSettings where
  dirs : Listing String
  patterns : Listing String
  gitignore : Bool
  deriving DecidableEq, Repr

/-- The store of earlier reports. -/
structure CacheSettings where
  enabled : Bool
  dir : String
  /-- In hours; zero keeps an entry until its content changes. -/
  ttl : Int
  deriving DecidableEq, Repr

/-- How results are shown. -/
structure OutputSettings where
  format : String
  color : Bool
  deriving DecidableEq, Repr

/-- All settings. -/
structure Config where
  thresholds : Thresholds
  symbols : Symbols
  /-- The ordered module table; the first rule that matches wins. -/
  modules : Listing ModuleRule
  classification : Classification
  scan : ScanSettings
  exclude : ExcludeSettings
  cache : CacheSettings
  output : OutputSettings
  deriving DecidableEq, Repr

/-- Unmatched functions go to the default module. -/
def defaultBucketPolicy : String := "default-bucket"

/-- An unmatched function goes where its first classified dependency went. -/
def inheritPolicy : String := "inherit-from-dependency"

namespace Config

/-- The module table that holds where no file sets another. -/
def defaultModules : List ModuleRule :=
  [⟨"core", some ["showNotification", "debounce", "saveData", "loadAppData", "initialize", "escapeHtml",
      "safe", "validate", "check"]⟩,
   ⟨"setup", some ["workType", "criteria", "step", "wizard", "selectWorkType", "updateWorkType",
      "nextStep", "prevStep"]⟩,
   ⟨"tasks", some ["task", "addTask", "removeTask", "duplicateTask", "taxonomy", "moveTask",
      "parseTask"]⟩,
   ⟨"students", some ["student", "addStudent", "class", "importSchool", "filterStudents",
      "moveStudent", "sortStudents"]⟩,
   ⟨"results", some ["result", "calculate", "grade", "score", "renderResults", "updateScore",
      "fillPattern", "bulkEdit", "copyRow"]⟩,
   ⟨"analytics", some ["analyze", "chart", "report", "generate", "recommendation", "statistics", "kpi",
      "dashboard", "performance"]⟩,
   ⟨"export", some ["export", "import", "print", "PDF", "Excel", "HTML", "JSON", "download",
      "saveAs"]⟩,
   ⟨"ui", some ["showModal", "tab", "notification", "tour", "pwa", "toggle", "show"]⟩,
   ⟨"errors", some ["error", "Error", "addError", "deleteError", "showError"]⟩,
   ⟨"charts", some ["chart", "Chart", "renderChart", "updateChart", "createChart"]⟩]

/-- The settings that hold where no file sets others. -/
def default : Config where
  thresholds := ⟨10, 15, 0⟩
  symbols :=
    { globals := some ["appData", "schoolData", "complexityLevels", "errorTypes", "workTypes",
        "vprLevels", "vprCompetencies", "functionalLiteracyTypes", "literacyContexts",
        "gradesChartInstance", "complexityChartInstance", "saveTimeout", "currentStep", "criteriaMode"]
      platformAPI := some ["document.", "getElementById", "querySelector", "addEventListener",
        "innerHTML", "appendChild", ".style."] }
  modules := some defaultModules
  classification := ⟨"core", defaultBucketPolicy⟩
  scan := ⟨some [".js", ".mjs", ".cjs", ".jsx", ".html", ".htm"], none, 0, 0⟩
  exclude := ⟨some ["node_modules", ".git", ".vscode", ".modsplit"], some ["*.min.js"], false⟩
  cache := ⟨false, ".modsplit/cache", 24⟩
  output := ⟨"text", true⟩

end Config

end ScriptSplit
