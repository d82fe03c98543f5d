import ScriptSplit.Format.Json.Value
import ScriptSplit.Text.Digit

/-!
# Writing JSON

Strings are written so that the text is safe inside a web page: the characters `<`, `>` and `&` and
the two line separators are escaped beside quotes, backslashes and control characters.

* `Json.quote`: a string literal.
* `Json.compact`: without blanks; `Json.pretty`: one entry a line, indented by two spaces.
-/

namespace ScriptSplit.Json

/-- The four-digit escape of a code. -/
def unitEscape (n : Nat) : List Char := '\x5c' :: 'u' :: lastDigits lowerDigit 4 n

/-- How a character is written inside a string literal. -/
def escape (c : Char) : List Char :=
  if c = '\x22' then ['\x5c', '\x22']
  else if c = '\x5c' then ['\x5c', '\x5c']
  else if c = '\n' then ['\x5c', 'n']
  else if c = '\r' then ['\x5c', 'r']
  else if c = '\t' then ['\x5c', 't']
  else if c = '\x08' then ['\x5c', 'b']
  else if c = '\x0c' then ['\x5c', 'f']
  else if c.toNat < 0x20 || c = '<' || c = '>' || c = '&' || c.toNat = 0x2028 || c.toNat = 0x2029 then
    unitEscape c.toNat
  else [c]

/-- The literal of a string. -/
def quote (s : String) : String :=
  String.ofList ('\x22' :: s.toList.flatMap escape ++ ['\x22'])

mutual

/-- The text of a value without blanks. -/
def compact : Json → String
  | null => "null"
  | bool b => if b then "true" else "false"
  | number literal => literal
  | string s => quote s
  | array items => "[" ++ ",".intercalate (compactItems items) ++ "]"
  | object fields => "\x7b" ++ ",".intercalate (compactFields fields) ++ "\x7d"

/-- The texts of the items of an array. -/
def compactItems : List Json → List String
  | [] => []
  | item :: rest => compact item :: compactItems rest

/-- The texts of the fields of an object. -/
def compactFields : List (String × Json) → List String
  | [] => []
  | (key, value) :: rest => (quote key ++ ":" ++ compact value) :: compactFields rest

end

mutual

/-- The text of a value over several lines; `margin` starts each line after the first. -/
def prettyAt (margin : String) : Json → String
  | null => "null"
  | bool b => if b then "true" else "false"
  | number literal => literal
  | string s => quote s
  | array [] => "[]"
  | array (item :: rest) =>
    "[\n" ++ ",\n".intercalate (prettyItems (margin ++ "  ") (item :: rest)) ++ "\n" ++ margin ++ "]"
  | object [] => "\x7b\x7d"
  | object (field :: rest) =>
    "\x7b\n" ++ ",\n".intercalate (prettyFields (margin ++ "  ") (field :: rest)) ++ "\n" ++ margin ++ "\x7d"

/-- The lines of the items of an array. -/
def prettyItems (margin : String) : List Json → List String
  | [] => []
  | item :: rest => (margin ++ prettyAt margin item) :: prettyItems margin rest

/-- The lines of the fields of an object. -/
def prettyFields (margin : String) : List (String × Json) → List String
  | [] => []
  | (key, value) :: rest =>
    (margin ++ quote key ++ ": " ++ prettyAt margin value) :: prettyFields margin rest

end

/-- The text of a value, one entry a line, without a final newline. -/
def pretty (value : Json) : String := prettyAt "" value

end ScriptSplit.Json
