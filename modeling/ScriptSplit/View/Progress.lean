/-!
# Progress

A bar counts finished files, a spinner shows that something goes on. Both are drawn over the line that
they stand on. Only what outlasts them is told here: the complete bar, its removal, and the message
at the end.

* `Progress.afterTicks`: what has been drawn after so many files.
* `Progress.finish`: completes and removes the bar.
* `Progress.skippedLine`, `Progress.errorLine`: messages at the end.
-/

namespace ScriptSplit

/-- A bar or a spinner; a quiet one draws nothing. -/
structure Progress where
  label : String
  /-- A spinner knows no total. -/
  isSpinner : Bool
  total : Int
  quiet : Bool
  deriving DecidableEq, Repr

namespace Progress

/-- A spinner with a label. -/
def spinner (label : String) (quiet : Bool) : Progress := ⟨label, true, -1, quiet⟩

/-- A bar with a label and a total. -/
def bar (label : String) (total : Int) (quiet : Bool) : Progress := ⟨label, false, total, quiet⟩

/-- The width of a bar. -/
def barWidth : Nat := 30

/-- The complete bar, from the start of the line to its end. -/
def completeBar (p : Progress) : String :=
  "\r" ++ p.label ++ " 100% [" ++ String.ofList (List.replicate barWidth '=') ++ "] (" ++
    toString p.total ++ "/" ++ toString p.total ++ ") \x1b[0K"

/-- Removes what stands on the line. -/
def clearLine : String := "\x1b[2K\r"

/-- The bar is drawn at all. -/
def isDrawn (p : Progress) : Bool := !p.quiet && !p.isSpinner && p.total != 0

/-- The bar is complete after so many files. -/
def isComplete (p : Progress) (ticks : Nat) : Bool := 0 < p.total && p.total ≤ ticks

/-- What has been drawn after so many files, once the bar is complete. -/
def afterTicks (p : Progress) (ticks : Nat) : String :=
  if p.isDrawn && p.isComplete ticks then p.completeBar else ""

/-- Completes the bar and removes it. A bar that was drawn for the first time when it was complete
stays. -/
def finish (p : Progress) (ticks : Nat) : String :=
  if p.isDrawn then
    (if p.isComplete ticks then "" else p.completeBar) ++ if 0 < ticks && 1 < p.total then clearLine else ""
  else ""

/-- The message of work that was skipped. -/
def skippedLine (p : Progress) (reason : String) : String := "  " ++ p.label ++ " skipped (" ++ reason ++ ")\n"

/-- The message of work that failed. -/
def errorLine (p : Progress) (reason : String) : String := "  " ++ p.label ++ " error: " ++ reason ++ "\n"

end Progress

end ScriptSplit
