import ScriptSplit.Text.Digit

/-!
# Writing TOML

* `Toml.Field`: a key with a value and perhaps a comment.
* `Toml.Section`: a table, or one table of a list.
* `Toml.sectionsText`: the text of sections.
-/

namespace ScriptSplit.Toml

/-- A value that settings hold. -/
inductive Value where
  | text (s : String)
  | int (n : Int)
  | bool (b : Bool)
  | texts (items : List String)
  deriving DecidableEq, Repr

/-- The escape of a code in four digits. -/
def codeEscape (n : Nat) : List Char := '\x5c' :: 'u' :: lastDigits upperDigit 4 n

/-- How a character is written between quotes. Only the last sixteen bits of its code decide whether it
is a control character. -/
def escape (c : Char) : List Char :=
  let low := c.toNat % 65536
  if c = '\x08' then ['\x5c', 'b']
  else if c = '\t' then ['\x5c', 't']
  else if c = '\n' then ['\x5c', 'n']
  else if c = '\x0c' then ['\x5c', 'f']
  else if c = '\r' then ['\x5c', 'r']
  else if c = '\x22' then ['\x5c', '\x22']
  else if c = '\x5c' then ['\x5c', '\x5c']
  else if low < 0x1f then codeEscape low
  else [c]

/-- A text between quotes. -/
def quote (s : String) : String := String.ofList ('\x22' :: s.toList.flatMap escape ++ ['\x22'])

/-- The text of a value. -/
def Value.toText : Value → String
  | text s => quote s
  | int n => toString n
  | bool b => if b then "true" else "false"
  | texts items => "[" ++ ", ".intercalate (items.map quote) ++ "]"

/-- A key with a value; an empty comment is none. -/
structure Field where
  key : String
  comment : String
  value : Value
  deriving DecidableEq, Repr

/-- A field without a comment. -/
def Field.plain (key : String) (value : Value) : Field := ⟨key, "", value⟩

/-- The lines of a field; a comment stands above it after an empty line. -/
def Field.toText (f : Field) : String :=
  (if f.comment = "" then "" else "\n  # " ++ f.comment ++ "\n") ++
    "  " ++ f.key ++ " = " ++ f.value.toText ++ "\n"

/-- A table, or one table of a list. -/
structure Section where
  name : String
  inList : Bool
  fields : List Field
  deriving DecidableEq, Repr

/-- The lines of a section, after an empty line. -/
def Section.toText (s : Section) : String :=
  (if s.inList then "\n[[" ++ s.name ++ "]]\n" else "\n[" ++ s.name ++ "]\n") ++
    String.join (s.fields.map Field.toText)

/-- The text of sections. -/
def sectionsText (sections : List Section) : String := String.join (sections.map Section.toText)

end ScriptSplit.Toml
