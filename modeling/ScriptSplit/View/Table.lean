import ScriptSplit.Text.Width
import ScriptSplit.View.Heading

/-!
# Text tables

Every cell is padded with a blank on both sides and aligned to the left in the widest cell of its
column. Blanks at the ends of a line of a cell do not widen its column.

* `tableText`: header, rows and footer with the lines between them.
-/

namespace ScriptSplit

/-- A cell without white space at its ends and with a blank for each tab. -/
def cellText (cell : String) : String := (trimSpaces cell).replace "\t" " "

/-- The lines of a cell. -/
def cellLines (cell : String) : List String := (cellText cell).splitOn "\n"

/-- The cells of a row as lines, one list a cell. -/
abbrev RowLines := List (List String)

/-- The width of a column: that of its widest line without the blanks at its ends. -/
def columnWidth (rows : List RowLines) (i : Nat) : Nat :=
  (rows.flatMap fun row => (row[i]?.getD []).map fun line => displayWidth (trimSpaces line)).foldl max 0

/-- The width of each column. -/
def columnWidths (rows : List RowLines) : List Nat :=
  (List.range ((rows.map List.length).foldl max 0)).map (columnWidth rows)

/-- The first characters of a text that fit into so many columns. -/
def firstColumns : (columns : Nat) → List Char → List Char
  | _, [] => []
  | columns, c :: r => if charWidth c ≤ columns then c :: firstColumns (columns - charWidth c) r else []

/-- A cell cut down or filled up to the width of its column. -/
def paddedCell (width : Nat) (text : String) : String :=
  let shown := if displayWidth text ≤ width then text else String.ofList (firstColumns width text.toList)
  " " ++ shown ++ String.ofList (List.replicate (width - displayWidth shown) ' ') ++ " "

/-- The lines of a row, which is as high as its highest cell, with a text for each column. -/
def lineTexts (columns : Nat) (row : RowLines) : List (List String) :=
  (List.range ((row.map List.length).foldl max 0)).map fun k =>
    (List.range columns).map fun i => ((row[i]?.getD [])[k]?).getD ""

/-- A line of a row with its cells side by side. -/
def lineText (widths : List Nat) (texts : List String) : String :=
  String.join ((widths.zip texts).map fun (w, text) => paddedCell w text) ++ "\n"

/-- The text of a header or a footer. -/
def rowText (widths : List Nat) (row : RowLines) : String :=
  String.join ((lineTexts widths.length row).map (lineText widths))

/-- The text of a row between header and footer. Of its lines after the first, the blank ones are
left out. -/
def bodyText (widths : List Nat) (row : RowLines) : String :=
  match lineTexts widths.length row with
  | [] => ""
  | first :: others =>
    let shown := others.filter fun texts => texts.any fun text => trimSpaces text != ""
    String.join ((first :: shown).map (lineText widths))

/-- A table without borders. A line follows the header if there are rows, and precedes the footer. -/
def tableText (headers : List String) (rows : List (List String)) (footer : List String) : String :=
  let head : RowLines := headers.map fun h => (heading (cellText h)).splitOn "\n"
  let body := rows.map fun row => row.map cellLines
  let foot := footer.map cellLines
  let widths := columnWidths (head :: body ++ [foot])
  let line := String.ofList (List.replicate (widths.foldr (fun w n => w + 2 + n) 0) (Char.ofNat 0x2500)) ++ "\n"
  (if headers.isEmpty then "" else rowText widths head ++ if rows.isEmpty then "" else line) ++
    String.join (body.map (bodyText widths)) ++
    (if footer.isEmpty then "" else line ++ rowText widths foot)

end ScriptSplit
