import ScriptSplit.Report.Types

/-!
# Calls between files

* `ownerOf?`: the first file that defines a name.
* `crossFileCalls`: the calls from a function of one file to a function that another file defines.
-/

namespace ScriptSplit

/-- The names that a file defines. -/
def FileResult.defines (r : FileResult) (name : String) : Bool :=
  r.report.functions.items.any (·.name == name)

/-- The path of the first file that defines a name. -/
def ownerOf? (results : List FileResult) (name : String) : Option String :=
  (results.find? (·.defines name)).map (·.report.path)

/-- The names in call position in the body of a function. -/
def FileResult.callsOf (r : FileResult) (name : String) : List String :=
  ((Dict.get? (r.callSites.getD []) name).getD none).items

/-- The calls that leave one file. A name that the file defines itself is never reported. -/
def callsLeaving (results : List FileResult) (r : FileResult) : List CrossFileCall :=
  r.report.functions.items.flatMap fun f =>
    (r.callsOf f.name).filterMap fun callee =>
      if r.defines callee then none
      else (ownerOf? results callee).map fun file => ⟨f.name, r.report.path, callee, file⟩

/-- The calls between files, by result, then by function, then by callee. When several files define
a name, the first one owns it. -/
def crossFileCalls (results : List FileResult) : List CrossFileCall :=
  results.flatMap (callsLeaving results)

end ScriptSplit
