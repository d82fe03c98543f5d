import ScriptSplit.Format.Json.Value
import ScriptSplit.Text.Letter
import ScriptSplit.Text.Space

/-!
# Token-oriented notation

A line format with little punctuation. Arrays carry their lengths; an array of objects that all have
the same plain fields is written as a table.

* `Toon.quoteIfNeeded`: strings that could be mistaken for something else are quoted.
* `Toon.write?`: the text of a value, or `none` where a key or a string holds a control character.
-/

namespace ScriptSplit.Toon

/-- Digits, with an optional fraction and an optional exponent. -/
def isNumberTail (cs : List Char) : Bool :=
  let afterDigits := fun (cs : List Char) => cs.dropWhile Char.isDigit
  let exponentEnds := fun (cs : List Char) =>
    match cs with
    | [] => true
    | e :: r =>
      (e = 'e' || e = 'E') &&
        let ds := match r with
          | '+' :: ds => ds
          | '-' :: ds => ds
          | ds => ds
        !ds.isEmpty && ds.all Char.isDigit
  cs.head?.any Char.isDigit &&
    match afterDigits cs with
    | '.' :: r => r.head?.any Char.isDigit && exponentEnds (afterDigits r)
    | r => exponentEnds r

/-- The text looks like a number. -/
def isNumberLike (cs : List Char) : Bool :=
  match cs with
  | '-' :: r => isNumberTail r
  | '0' :: d :: r => d.isDigit || isNumberTail ('0' :: d :: r)
  | r => isNumberTail r

/-- Characters that a string without quotes cannot hold. -/
def isMark (c : Char) : Bool :=
  c ∈ [':', '\x5c', '\x22', '[', ']', '\x7b', '\x7d', '\n', '\r', '\t', ',']

/-- The string has to be quoted. -/
def needsQuotes (s : String) : Bool :=
  let cs := s.toList
  cs.isEmpty || cs.head?.any isSpace || cs.getLast?.any isSpace || s ∈ ["true", "false", "null"] ||
    isNumberLike cs || cs.head? == some '-' || cs.any isMark

/-- How a character is written inside quotes. -/
def escape (c : Char) : List Char :=
  if c = '\x5c' || c = '\x22' then ['\x5c', c]
  else if c = '\n' then ['\x5c', 'n']
  else if c = '\r' then ['\x5c', 'r']
  else if c = '\t' then ['\x5c', 't']
  else [c]

/-- A string in quotes. -/
def quote (s : String) : String := String.ofList ('\x22' :: s.toList.flatMap escape ++ ['\x22'])

/-- A string, quoted where it needs to be. -/
def quoteIfNeeded (s : String) : String := if needsQuotes s then quote s else s

/-- A key, quoted unless it is a name of letters, digits, underscores and points. -/
def keyText (key : String) : String :=
  match key.toList with
  | [] => quote key
  | c :: r =>
    if (isLetter c || c = '_') && r.all (fun c => isLetter c || isDecimalDigit c || c = '_' || c = '.') then
      key
    else quote key

/-- A string without control characters other than newline, carriage return and tab. -/
def isWritableString (s : String) : Bool :=
  s.toList.all fun c => 0x20 ≤ c.toNat || c = '\n' || c = '\r' || c = '\t'

/-- The key of an array, which is left out if it is empty. -/
def arrayKeyText (key : String) : String := if key = "" then "" else keyText key

/-- A key in the header of a table, which stays empty if it cannot be written. -/
def columnText (key : String) : String := if isWritableString key then keyText key else ""

/-- The text of a value that has no parts. -/
def primitive? : Json → Option String
  | .null => some "null"
  | .bool b => some (if b then "true" else "false")
  | .number literal => some literal
  | .string s => some (quoteIfNeeded s)
  | .array _ => none
  | .object _ => none

/-- The fields of the row that an object makes in a table. -/
def row? (header : List String) : Json → Option (List String)
  | .object fields =>
    if fields.length = header.length then
      header.mapM fun key => (fields.lookup key).bind primitive?
    else none
  | _ => none

/-- The header and the rows of an array whose items are objects with the same plain fields. -/
def table? (items : List Json) : Option (List String × List (List String)) :=
  match items with
  | .object (field :: rest) :: _ => do
    let header := (field :: rest).map Prod.fst
    let rows ← items.mapM (row? header)
    some (header, rows)
  | _ => none

/-- The indentation of a depth. -/
def pad (depth : Nat) : String := String.ofList (List.replicate (2 * depth) ' ')

/-- The lines of an array. The first one starts with `lead`. What does not fit on it stands at depth
`inner`: the rows of a table, or else the lines `body` of the items. -/
def arrayLines (lead : String) (inner : Nat) (items : List Json) (body : List String) : List String :=
  let size := lead ++ "[" ++ toString items.length ++ "]"
  match items.mapM primitive? with
  | some [] => [size ++ ":"]
  | some texts => [size ++ ": " ++ ",".intercalate texts]
  | none =>
    match table? items with
    | some (header, rows) =>
      (size ++ "\x7b" ++ ",".intercalate (header.map columnText) ++ "\x7d:") ::
        rows.map fun row => pad inner ++ ",".intercalate row
    | none => (size ++ ":") :: body

mutual

/-- The lines of the items of an array, each after a hyphen. -/
def itemLines (depth : Nat) : List Json → List String
  | [] => []
  | item :: rest => oneItemLines depth item ++ itemLines depth rest

/-- The lines of one item. The first field of an object stands on the line of the hyphen, unless it is
an object itself. -/
def oneItemLines (depth : Nat) : Json → List String
  | .array items => arrayLines (pad depth ++ "- ") (depth + 1) items (itemLines (depth + 1) items)
  | .object [] => [pad depth ++ "- \x7b\x7d"]
  | .object ((key, .object inner) :: rest) =>
    (pad depth ++ "-") :: (pad (depth + 1) ++ keyText key ++ ":") :: entryLines (depth + 2) inner ++
      entryLines (depth + 1) rest
  | .object ((key, value) :: rest) =>
    fieldLines (pad depth ++ "- ") key (depth + 1) value ++ entryLines (depth + 1) rest
  | .null => [pad depth ++ "- null"]
  | .bool b => [pad depth ++ "- " ++ (if b then "true" else "false")]
  | .number literal => [pad depth ++ "- " ++ literal]
  | .string s => [pad depth ++ "- " ++ quoteIfNeeded s]

/-- The lines of a field. The first one starts with `lead`; what does not fit on it stands at depth
`inner`. -/
def fieldLines (lead key : String) (inner : Nat) : Json → List String
  | .array items => arrayLines (lead ++ arrayKeyText key) inner items (itemLines inner items)
  | .object fields => (lead ++ keyText key ++ ":") :: entryLines inner fields
  | .null => [lead ++ keyText key ++ ": null"]
  | .bool b => [lead ++ keyText key ++ ": " ++ (if b then "true" else "false")]
  | .number literal => [lead ++ keyText key ++ ": " ++ literal]
  | .string s => [lead ++ keyText key ++ ": " ++ quoteIfNeeded s]

/-- The lines of the fields of an object. -/
def entryLines (depth : Nat) : List (String × Json) → List String
  | [] => []
  | (key, value) :: rest => fieldLines (pad depth) key (depth + 1) value ++ entryLines depth rest

end

/-- The lines of a document. -/
def documentLines : Json → List String
  | .array items => arrayLines "" 1 items (itemLines 1 items)
  | .object fields => entryLines 0 fields
  | value => [(primitive? value).getD ""]

/-- The value is no string with a control character. -/
def isWritableCell : Json → Bool
  | .string s => isWritableString s
  | _ => true

/-- The values in the rows of a table can be written. -/
def cellsWritable (items : List Json) : Bool :=
  items.all fun
    | .object fields => fields.all fun f => isWritableCell f.2
    | _ => true

mutual

/-- Every string of the value can be written. -/
def isWritable : Json → Bool
  | .string s => isWritableString s
  | .array items => if (table? items).isSome then cellsWritable items else itemsWritable items
  | .object fields => fieldsWritable fields
  | _ => true

/-- Every item can be written. -/
def itemsWritable : List Json → Bool
  | [] => true
  | item :: rest => isWritable item && itemsWritable rest

/-- Every field can be written. -/
def fieldsWritable : List (String × Json) → Bool
  | [] => true
  | (key, value) :: rest => isWritableString key && isWritable value && fieldsWritable rest

end

/-- The text of a value, without a final newline. -/
def write? (value : Json) : Option String :=
  if isWritable value then some ("\n".intercalate (documentLines value)) else none

end ScriptSplit.Toon
