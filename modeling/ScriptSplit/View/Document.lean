import ScriptSplit.View.Ink
import ScriptSplit.Format.Json.Value
import ScriptSplit.View.Table

/-!
# Documents

What can be shown as text, as markdown or as data.

* `Table`, `Section`, `Document`: the parts.
* `Document.text`, `Document.markdown`: for readers.
* `Document.toJson`, `Document.toToon`: for programs; the two formats name the fields of a section
  differently.
-/

namespace ScriptSplit

/-- A titled table. Where there are data, they stand for it in the data formats. -/
structure Table where
  title : String
  headers : List String
  rows : List (List String)
  footer : List String
  data : Option Json

/-- A titled text with sections below it. -/
inductive Section where
  | mk (title content : String) (sections : List Section) (data : Option Json)

/-- A document of titled parts. -/
inductive Document where
  | table (t : Table)
  | part (s : Section)
  | report (title : String) (parts : List Document) (data : Option Json)

/-- A title with a line below it as long as its UTF-8 encoding. -/
def underlined (shown title : String) (mark : Char) : String :=
  shown ++ "\n" ++ String.ofList (List.replicate title.utf8ByteSize mark) ++ "\n"

/-- A title in the given ink. -/
def Ink.title (ink : Ink) (title : String) : String := if ink.colored then ink.bold title else title

namespace Table

/-- A table for readers. -/
def text (ink : Ink) (t : Table) : String :=
  (if t.title = "" then "" else underlined (ink.title t.title) t.title '=' ++ "\n") ++
    tableText t.headers t.rows t.footer ++ "\n"

/-- A row of a markdown table. -/
def markdownRow (cells : List String) : String := "| " ++ " | ".intercalate cells ++ " |\n"

/-- A table in markdown. -/
def markdown (t : Table) : String :=
  (if t.title = "" then "" else "## " ++ t.title ++ "\n\n") ++ markdownRow t.headers ++
    markdownRow (t.headers.map fun _ => "---") ++ String.join (t.rows.map markdownRow) ++
    (if t.footer.isEmpty then "" else markdownRow t.footer) ++ "\n"

/-- The data of a table: its own, or an object for each row with the headers as keys. -/
def toJson (t : Table) : Json :=
  match t.data with
  | some data => data
  | none => .array (t.rows.map fun row => Json.dict .string (Dict.ofList (t.headers.zip row)))

end Table

namespace Section

mutual

/-- A section for readers; below the top level a title is underlined with hyphens. -/
def textAt (ink : Ink) (level : Nat) : Section → String
  | .mk title content sections _ =>
    (if title = "" then "" else underlined (ink.title title) title (if level = 0 then '=' else '-')) ++
      (if content = "" then "" else content ++ "\n") ++ textsAt ink (level + 1) sections

/-- The sections below one, each after an empty line. -/
def textsAt (ink : Ink) (level : Nat) : List Section → String
  | [] => ""
  | s :: rest => "\n" ++ textAt ink level s ++ textsAt ink level rest

end

mutual

/-- A section in markdown, with a heading of the given level. -/
def markdownAt (level : Nat) : Section → String
  | .mk title content sections _ =>
    (if title = "" then "" else String.ofList (List.replicate level '#') ++ " " ++ title ++ "\n\n") ++
      (if content = "" then "" else content ++ "\n\n") ++ markdownsAt (level + 1) sections

/-- The sections below one. -/
def markdownsAt (level : Nat) : List Section → String
  | [] => ""
  | s :: rest => markdownAt level s ++ markdownsAt level rest

end

mutual

/-- The fields of a section; empty ones are left out. -/
def fieldsJson : Section → Json
  | .mk title content sections data =>
    .object ((if title = "" then [] else [("title", .string title)]) ++
      (if content = "" then [] else [("content", .string content)]) ++
      (if sections.isEmpty then [] else [("sections", .array (fieldsJsons sections))]) ++
      (match data with
        | some d => [("data", d)]
        | none => []))

/-- The fields of several sections. -/
def fieldsJsons : List Section → List Json
  | [] => []
  | s :: rest => fieldsJson s :: fieldsJsons rest

end

mutual

/-- The fields of a section in the token-oriented notation, which leaves none out. -/
def fieldsToon : Section → Json
  | .mk title content sections data =>
    .object [("Title", .string title), ("Content", .string content),
      ("Sections", .array (fieldsToons sections)), ("Data", data.getD .null)]

/-- The fields of several sections. -/
def fieldsToons : List Section → List Json
  | [] => []
  | s :: rest => fieldsToon s :: fieldsToons rest

end

/-- The data of a section. -/
def data : Section → Option Json
  | .mk _ _ _ data => data

end Section

namespace Document

mutual

/-- A document for readers. -/
def text (ink : Ink) : Document → String
  | .table t => t.text ink
  | .part s => s.textAt ink 0
  | .report title parts _ =>
    (if title = "" then ""
      else underlined (if ink.colored then ink.boldCyan title else title) title '=' ++ "\n") ++
      "\n".intercalate (texts ink parts)

/-- The texts of several documents. -/
def texts (ink : Ink) : List Document → List String
  | [] => []
  | d :: rest => text ink d :: texts ink rest

end

mutual

/-- A document in markdown. -/
def markdown : Document → String
  | .table t => t.markdown
  | .part s => s.markdownAt 2
  | .report title parts _ => (if title = "" then "" else "# " ++ title ++ "\n\n") ++ markdowns parts

/-- Several documents in markdown. -/
def markdowns : List Document → String
  | [] => ""
  | d :: rest => markdown d ++ markdowns rest

end

mutual

/-- The data of a document. -/
def toJson : Document → Json
  | .table t => t.toJson
  | .part s => s.data.getD s.fieldsJson
  | .report title parts data =>
    data.getD (.object [("sections", .array (toJsons parts)), ("title", .string title)])

/-- The data of several documents. -/
def toJsons : List Document → List Json
  | [] => []
  | d :: rest => toJson d :: toJsons rest

end

mutual

/-- The data of a document in the token-oriented notation. -/
def toToon : Document → Json
  | .table t => t.toJson
  | .part s => s.data.getD s.fieldsToon
  | .report title parts data =>
    data.getD (.object [("sections", .array (toToons parts)), ("title", .string title)])

/-- The data of several documents in the token-oriented notation. -/
def toToons : List Document → List Json
  | [] => []
  | d :: rest => toToon d :: toToons rest

end

end Document

end ScriptSplit
