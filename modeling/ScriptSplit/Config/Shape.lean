import ScriptSplit.Config.Validation
import ScriptSplit.Format.Datum
import ScriptSplit.Format.Shortest

/-!
# The shape of settings files

* `Shape`: which values may stand in a place.
* `Shape.violations`: all places where a value departs from its shape.
* `settingsShape`: the shape of a settings file.
-/

namespace ScriptSplit

/-- Which values may stand in a place. -/
inductive Shape where
  /-- A whole number, zero or more. -/
  | count
  | text (nonEmpty : Bool)
  | bool
  /-- One of the given words. -/
  | oneOf (words : List String)
  | list (item : Shape)
  /-- A table with no other fields than the given ones. -/
  | table (fields : List (String × Shape)) (required : List String)
  deriving Repr

/-- How a value departs from its shape. -/
inductive Departure where
  | wrongType (got want : String)
  | belowZero (got : Int)
  | emptyText
  | missing (fields : List String)
  | additional (fields : List String)
  | notOneOf (words : List String)
  deriving DecidableEq, Repr

/-- A departure at a place of the document. -/
structure Violation where
  path : List String
  departure : Departure
  deriving DecidableEq, Repr

/-- A name between single quotes. A double quote loses its backslash wherever it stands. -/
def singleQuoted (s : String) : String :=
  let text := ((quoted s).replace "\x5c\x22" "\x22").replace "'" "\x5c'"
  "'" ++ String.ofList (text.toList.drop 1).dropLast ++ "'"

/-- Names between single quotes. -/
def singleQuotedList (names : List String) : String := ", ".intercalate (names.map singleQuoted)

/-- The text of a departure. -/
def Departure.message : Departure → String
  | wrongType got want => "got " ++ got ++ ", want " ++ want
  | belowZero got => "minimum: got " ++ (Decimal.ofInt got).groupedText ++ ", want 0"
  | emptyText => "minLength: got 0, want 1"
  | missing [field] => "missing property " ++ singleQuoted field
  | missing fields => "missing properties " ++ singleQuotedList fields
  | additional fields => "additional properties " ++ singleQuotedList fields ++ " not allowed"
  | notOneOf words => "value must be one of " ++ singleQuotedList words

/-- The text of a violation; the place is given as a pointer from the top of the document. -/
def Violation.message (v : Violation) : String :=
  "at '" ++ String.join (v.path.map ("/" ++ ·)) ++ "': " ++ v.departure.message

/-- The name of the type of a value. -/
def Datum.typeName : Datum → String
  | null => "null"
  | bool _ => "boolean"
  | int _ => "number"
  | real _ => "number"
  | notFinite => "number"
  | text _ => "string"
  | moment => "string"
  | list _ => "array"
  | table _ => "object"

namespace Shape

/-- A value of another type than is wanted; nothing else is said about it. -/
def wrongType (path : List String) (want : String) (d : Datum) : List Violation :=
  [⟨path, .wrongType d.typeName want⟩]

mutual

/-- All places where a value departs from its shape. -/
def violations (path : List String) : Shape → Datum → List Violation
  | count, d =>
    match d.integer? with
    | some n => if n < 0 then [⟨path, .belowZero n⟩] else []
    | none => wrongType path "integer" d
  | text nonEmpty, d =>
    match d with
    | .text s => if nonEmpty && s = "" then [⟨path, .emptyText⟩] else []
    | .moment => []
    | d => wrongType path "string" d
  | bool, d =>
    match d with
    | .bool _ => []
    | d => wrongType path "boolean" d
  | oneOf words, d =>
    match d with
    | .text s => if words.contains s then [] else [⟨path, .notOneOf words⟩]
    | _ => [⟨path, .notOneOf words⟩]
  | list item, d =>
    match d with
    | .list items => items.zipIdx.flatMap fun (x, i) => violations (path ++ [toString i]) item x
    | d => wrongType path "array" d
  | table shapes required, d =>
    match d with
    | .table fields =>
      let absent := required.filter fun key => (fields.lookup key).isNone
      let other := (fields.map Prod.fst).filter fun key => !(shapes.map Prod.fst).contains key
      (if absent.isEmpty then [] else [⟨path, .missing absent⟩]) ++
      (if other.isEmpty then [] else [⟨path, .additional (sortStrings other)⟩]) ++
      fieldViolations path shapes fields
    | d => wrongType path "object" d

/-- The departures of the fields that have a shape. -/
def fieldViolations (path : List String) : List (String × Shape) → List (String × Datum) → List Violation
  | [], _ => []
  | (key, shape) :: rest, fields =>
    (match fields.lookup key with
      | some d => violations (path ++ [key]) shape d
      | none => []) ++ fieldViolations path rest fields

end

end Shape

/-- A list of texts. -/
def namesShape : Shape := .list (.text false)

/-- The shape of a settings file. -/
def settingsShape : Shape :=
  .table
    [("thresholds", .table
       [("dependency_count", .count), ("dependent_count", .count), ("complexity", .count)] []),
     ("symbols", .table [("globals", namesShape), ("platform_api", namesShape)] []),
     ("modules", .list (.table [("tag", .text true), ("keywords", namesShape)] ["tag", "keywords"])),
     ("classification", .table
       [("default_module", .text true), ("fallback_policy", .oneOf Config.policyNames)] []),
     ("scan", .table
       [("extensions", namesShape), ("include", namesShape), ("max_file_size", .count),
        ("workers", .count)] []),
     ("exclude", .table [("dirs", namesShape), ("patterns", namesShape), ("gitignore", .bool)] []),
     ("cache", .table [("enabled", .bool), ("dir", .text false), ("ttl", .count)] []),
     ("output", .table [("format", .oneOf Config.formatNames), ("color", .bool)] [])]
    []

/-- The texts of all violations of the settings' shape, sorted. -/
def shapeViolations (d : Datum) : List String :=
  sortStrings ((settingsShape.violations [] d).map Violation.message)

end ScriptSplit
