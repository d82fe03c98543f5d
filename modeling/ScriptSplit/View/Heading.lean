import ScriptSplit.Text.CaseKind
import ScriptSplit.Text.Space

/-!
# Column headings

The heading of a column is its name in words, in upper case: a name such as `maxDepth` or
`max_depth` is headed `MAX DEPTH`.

* `nameWords`: the words of a name, which end where the kind of character changes.
* `heading`: the words in upper case, with blanks for the marks that join them.
-/

namespace ScriptSplit

/-- The kinds of character that tell words apart. -/
inductive WordKind where
  | lower
  | upper
  | digit
  | other
  deriving DecidableEq

/-- The kind of a character. -/
def wordKind (c : Char) : WordKind :=
  if isLowerCase c then .lower
  else if isUpperCase c then .upper
  else if isDecimalDigit c then .digit
  else .other

/-- The last capital of a run of capitals opens the lower-case word that follows it. -/
def joinCapitals : List (List Char) → List (List Char)
  | a :: b :: r =>
    match a.getLast?, b.head? with
    | some capital, some small =>
      if isUpperCase capital && isLowerCase small then
        a.dropLast :: (capital :: b) :: joinCapitals r
      else a :: joinCapitals (b :: r)
    | _, _ => a :: joinCapitals (b :: r)
  | runs => runs

/-- The words of a name. Blanks and single underscores only part words. -/
def nameWords (name : String) : List String :=
  let runs := joinCapitals (name.toList.splitBy fun a b => wordKind a = wordKind b)
  (runs.filter fun run => !run.all isSpace && run != ['_']).map String.ofList

/-- A digit or a blank: a point beside it may belong to a number. -/
def besideNumber (c : Char) : Bool := c.isDigit || c = ' '

/-- The text with blanks for underscores, and for points that have a character beside them that
neither is a digit nor a blank. -/
def spreadMarks : (before : Option Char) → List Char → List Char
  | _, [] => []
  | before, c :: r =>
    let parts := c = '_' || c = '.' && !(before.all besideNumber && r.head?.all besideNumber)
    let shown := if parts then ' ' else c
    shown :: spreadMarks (some shown) r

/-- The heading of a column. A name of marks alone gives a blank. -/
def heading (name : String) : String :=
  let words := String.intercalate " " (nameWords name)
  let text := trimSpaces (String.ofList (spreadMarks none words.toList))
  if text = "" && words != "" then " " else upperCase text

end ScriptSplit
