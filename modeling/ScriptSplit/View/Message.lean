import ScriptSplit.View.Ink

/-!
# Messages

* `formatTexts`: fills texts into a pattern.
* `Message.text`: a line that tells of success, of a warning or of an error.
-/

namespace ScriptSplit

/-- Fills the texts into the places of a pattern. A place is written `%s`, a percent sign `%%`. A
place without a text and a text without a place are pointed out. -/
def fillPlaces : List Char → List String → List Char
  | [], [] => []
  | [], args =>
    ("%!(EXTRA " ++ ", ".intercalate (args.map fun a => "string=" ++ a) ++ ")").toList
  | '%' :: 's' :: r, a :: args => a.toList ++ fillPlaces r args
  | '%' :: 's' :: r, [] => "%!s(MISSING)".toList ++ fillPlaces r []
  | '%' :: '%' :: r, args => '%' :: fillPlaces r args
  | c :: r, args => c :: fillPlaces r args

/-- A pattern with its places filled. -/
def formatTexts (pattern : String) (args : List String) : String :=
  String.ofList (fillPlaces pattern.toList args)

/-- What a message tells of. -/
inductive MessageLevel where
  | success
  | warning
  | error
  deriving DecidableEq, Repr

/-- A message as a line. Without colours a warning and an error start with a word that says so. -/
def messageLine (ink : Ink) (level : MessageLevel) (pattern : String) (args : List String) : String :=
  let line := formatTexts (pattern ++ "\n") args
  match level with
  | .success => if ink.colored then ink.green line else line
  | .warning => if ink.colored then ink.yellow line else "WARNING: " ++ line
  | .error => if ink.colored then ink.red line else "ERROR: " ++ line

end ScriptSplit
