import ScriptSplit.Cache.Store
import ScriptSplit.Command.Menu
import ScriptSplit.Config.Loading
import ScriptSplit.Report.Directory
import ScriptSplit.Scan.Collect
import ScriptSplit.View.Output

/-!
# Sessions

A command works on a disk and prints to two streams. What it has done stays done when it fails.

* `Session`: the disk, the time and what was printed.
* `CommandError`: why a command fails, with its text.
* `Work`: a step of a command.
-/

namespace ScriptSplit.Command

/-- The disk, the time and what was printed so far. -/
structure Session where
  disk : Disk
  /-- The time in nanoseconds. -/
  now : Int
  /-- What was printed as a result. -/
  out : String
  /-- What was printed beside it. -/
  err : String

/-- A session in which nothing was printed. -/
def Session.start (d : Disk) (now : Int) : Session := ⟨d, now, "", ""⟩

/-- Why a command fails. -/
inductive CommandError where
  | misuse (cause : FlagError)
  | noTopic (topic : String)
  | missingFlag (name : String)
  | config (cause : ConfigError)
  | collect (cause : CollectError)
  /-- The only file of a run has no report. -/
  | file (path message : String)
  | notOneFile
  | disk (cause : PathError)
  | output (cause : OutputError)
  | report (cause : ReportWriteError)
  | reportFaults (count : Nat) (dir : String)
  | load (cause : ReportLoadError)
  | settingsExist (path : String)
  | settingsDirectory (dir : String) (cause : PathError)
  | settingsFile (cause : PathError)
  | profile (kind : String) (cause : PathError)
  | clearCache (cause : PathError)
  /-- One failure after the other. -/
  | both (first second : CommandError)

/-- The text of an error. -/
def CommandError.message : CommandError → String
  | misuse cause => cause.message
  | noTopic topic => "No help topic for '" ++ topic ++ "'"
  | missingFlag name => "Required flag " ++ "\x22" ++ name ++ "\x22 not set"
  | config cause => cause.message
  | collect cause => cause.message
  | file path message => path ++ ": " ++ message
  | notOneFile => "graph takes exactly one file"
  | disk cause => cause.message
  | output cause => cause.message
  | report cause => cause.message
  | reportFaults count dir => toString count ++ " problem(s) in " ++ dir
  | load cause => cause.message
  | settingsExist path => "config file " ++ quoted path ++ " already exists (use --force to overwrite)"
  | settingsDirectory dir cause => "failed to create directory " ++ quoted dir ++ ": " ++ cause.message
  | settingsFile cause => "failed to write config file: " ++ cause.message
  | profile kind cause => "failed to create " ++ kind ++ " profile: " ++ cause.message
  | clearCache cause => "failed to clear cache: " ++ cause.message
  | both first second => first.message ++ "\n" ++ second.message

/-- A step of a command. -/
abbrev Work (α : Type) := ExceptT CommandError (StateM Session) α

/-- Prints a result. -/
def say (s : String) : Work Unit := modify fun w => { w with out := w.out ++ s }

/-- Prints something beside the result. -/
def tell (s : String) : Work Unit := modify fun w => { w with err := w.err ++ s }

/-- The disk as it is. -/
def theDisk : Work Disk := return (← get).disk

/-- Works on another disk from here on. -/
def setDisk (d : Disk) : Work Unit := modify fun w => { w with disk := d }

/-- Takes over the disk of an operation, or fails. -/
def orFail {ε : Type} (wrap : ε → CommandError) (x : Except ε Disk) : Work Unit :=
  match x with
  | .ok d => setDisk d
  | .error e => throw (wrap e)

end ScriptSplit.Command
