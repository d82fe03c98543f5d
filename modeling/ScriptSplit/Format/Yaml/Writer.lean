import ScriptSplit.Format.Json.Writer
import ScriptSplit.Format.Yaml.Letter
import ScriptSplit.Format.Yaml.Scalar
import ScriptSplit.Text.Bytes
import ScriptSplit.Text.Digit

/-!
# Writing YAML

Documents in block style. Mappings are indented to the next multiple of four columns, and a sequence
inside a mapping is indented as well. Strings are quoted only where they need it.

* `Yaml.Style.ofString`: plain, single quotes, double quotes or a literal block.
* `Yaml.write?`: the document of a value, or `none` where a string cannot stand in a document.
-/

namespace ScriptSplit.Yaml

/-! ## The shape of a string -/

/-- What a string has in it that limits how it may be written. -/
structure Shape where
  /-- An indicator at a place where it has a meaning. -/
  indicators : Bool
  lineBreaks : Bool
  special : Bool
  tabs : Bool
  leadingBlank : Bool
  trailingSpace : Bool
  trailingBreak : Bool
  /-- A space right after a line break. -/
  breakSpace : Bool
  /-- A line break right after a space. -/
  spaceBreak : Bool

/-- The end of the text or a blank follows. -/
def blankFollows : List Char → Bool
  | [] => true
  | c :: _ => isBlankChar c

/-- Characters that mean something at the start of a scalar. -/
def isLeadIndicator (c : Char) : Bool :=
  c ∈ ['#', ',', '[', ']', '\x7b', '\x7d', '&', '*', '!', '|', '>', '\x27', '\x22', '%', '@', '\x60']

/-- An indicator inside the text: a colon before a blank, or a hash mark after one. -/
def hasInnerIndicator : (before : Char) → List Char → Bool
  | _, [] => false
  | before, c :: r =>
    (c = ':' && blankFollows r) || (c = '#' && (isBlankChar before || isBreak before)) ||
      hasInnerIndicator c r

/-- An indicator at a place where it has a meaning. -/
def hasIndicator (cs : List Char) : Bool :=
  match cs with
  | [] => false
  | c :: r =>
    cs.take 3 == ['-', '-', '-'] || cs.take 3 == ['.', '.', '.'] || isLeadIndicator c ||
      ((c = '?' || c = ':' || c = '-') && blankFollows r) || hasInnerIndicator c r

/-- Two neighbours of which the first and the second pass tests. -/
def hasNeighbours (first second : Char → Bool) : List Char → Bool
  | a :: b :: r => (first a && second b) || hasNeighbours first second (b :: r)
  | _ => false

/-- The shape of a string. -/
def Shape.ofChars (cs : List Char) : Shape where
  indicators := hasIndicator cs
  lineBreaks := cs.any isBreak
  special := cs.any fun c => c ≠ '\t' && !isPlainChar c
  tabs := cs.contains '\t'
  leadingBlank := cs.head?.any fun c => c = ' ' || isBreak c
  trailingSpace := cs.getLast? == some ' '
  trailingBreak := cs.getLast?.any isBreak
  breakSpace := hasNeighbours isBreak (· = ' ') cs
  spaceBreak := hasNeighbours (· = ' ') isBreak cs

/-- The string may stand without quotes. -/
def Shape.plainAllowed (s : Shape) : Bool :=
  !(s.indicators || s.lineBreaks || s.special || s.tabs || s.leadingBlank || s.trailingSpace ||
    s.trailingBreak || s.breakSpace || s.spaceBreak)

/-- The string may stand in single quotes. -/
def Shape.singleAllowed (s : Shape) : Bool :=
  !(s.breakSpace || s.spaceBreak || s.tabs || s.special)

/-- The string may stand in a literal block. -/
def Shape.blockAllowed (s : Shape) : Bool := !(s.trailingSpace || s.spaceBreak || s.special)

/-- How a string is written. -/
inductive Style where
  | plain
  | single
  | double
  | literal
  deriving DecidableEq, Repr

/-- The style of a string. A string that would read as another type goes into double quotes. -/
def Style.ofString (s : String) : Style :=
  let shape := Shape.ofChars s.toList
  if s.toList.contains '\n' then if shape.blockAllowed then .literal else .double
  else if Scalar.ofPlain s ≠ .string then .double
  else if shape.plainAllowed then .plain
  else if shape.singleAllowed then .single
  else .double

/-! ## Strings -/

/-- The letter of a character that has a short escape. -/
def shortEscape? (c : Char) : Option Char :=
  match c.toNat with
  | 0x00 => some '0'
  | 0x07 => some 'a'
  | 0x08 => some 'b'
  | 0x09 => some 't'
  | 0x0a => some 'n'
  | 0x0b => some 'v'
  | 0x0c => some 'f'
  | 0x0d => some 'r'
  | 0x1b => some 'e'
  | 0x22 => some '\x22'
  | 0x5c => some '\x5c'
  | 0x85 => some 'N'
  | 0xa0 => some '_'
  | 0x2028 => some 'L'
  | 0x2029 => some 'P'
  | _ => none

/-- How a character is written in double quotes; `all` asks for an escape also where none is needed. -/
def escapeDouble (all : Bool) (c : Char) : List Char :=
  if !all && isPlainChar c && !isBreak c && c ≠ '\x22' && c ≠ '\x5c' then [c]
  else
    match shortEscape? c with
    | some e => ['\x5c', e]
    | none =>
      if c.toNat ≤ 0xff then '\x5c' :: 'x' :: lastDigits upperDigit 2 c.toNat
      else if c.toNat ≤ 0xffff then '\x5c' :: 'u' :: lastDigits upperDigit 4 c.toNat
      else '\x5c' :: 'U' :: lastDigits upperDigit 8 c.toNat

/-- A string in double quotes. Behind a byte order mark at its start every character is escaped. -/
def doubleQuoted (s : String) : String :=
  let marked := s.toList.head?.any fun c => c.toNat = 0xfeff
  String.ofList ('\x22' :: s.toList.flatMap (escapeDouble marked) ++ ['\x22'])

/-- That many spaces. -/
def pad (n : Nat) : String := String.ofList (List.replicate n ' ')

/-- The characters of a single-quoted string; after a line break the text is indented again. -/
def singleChars (indent : Nat) : (broken : Bool) → List Char → List Char
  | _, [] => []
  | broken, c :: r =>
    if isBreak c then c :: singleChars indent true r
    else
      (if broken && c ≠ ' ' then List.replicate indent ' ' else []) ++
        (if c = '\x27' then [c, c] else [c]) ++ singleChars indent false r

/-- A string in single quotes. -/
def singleQuoted (indent : Nat) (s : String) : String :=
  String.ofList ('\x27' :: singleChars indent false s.toList ++ ['\x27'])

/-- The marks after the bar of a literal block: the indentation where the text starts with a blank,
and what becomes of the line breaks at its end. -/
def blockHints (cs : List Char) : String :=
  (if cs.head?.any (fun c => c = ' ' || isBreak c) then "4" else "") ++
    match cs.reverse with
    | [] => "-"
    | [c] => if isBreak c then "+" else "-"
    | c :: d :: _ => if !isBreak c then "-" else if isBreak d then "+" else ""

/-- The characters of a literal block; every line that is not empty is indented. -/
def literalChars (indent : Nat) : (fresh broken : Bool) → List Char → List Char
  | _, _, [] => []
  | fresh, broken, c :: r =>
    if isBreak c then c :: literalChars indent false true r
    else
      (if fresh then ['\n'] else []) ++ (if broken then List.replicate indent ' ' else []) ++
        c :: literalChars indent false false r

/-- A literal block: its bar and its lines. -/
def literalText (indent : Nat) (s : String) : String :=
  "|" ++ blockHints s.toList ++ String.ofList (literalChars indent true true s.toList)

/-- The next-line character. -/
def isNextLine (c : Char) : Bool := c.toNat = 0x85

/-- What a gap between words becomes: `spaces` if no line ends in it, one space for one line end, and a
newline for each further one. -/
def gapText (ends spaces : Nat) : List Char :=
  if ends = 0 then List.replicate spaces ' '
  else if ends = 1 then [' ']
  else List.replicate (ends - 1) '\n'

/-- The next-line character ends a line of a quoted text, and a quoted text is folded. `ends` counts the
line ends and `spaces` the spaces before them since the last other character. -/
def foldLines : (ends spaces : Nat) → List Char → List Char
  | ends, spaces, [] => gapText ends spaces
  | ends, spaces, c :: r =>
    if isNextLine c then foldLines (ends + 1) 0 r
    else if c = ' ' then foldLines ends (spaces + 1) r
    else gapText ends spaces ++ c :: foldLines 0 0 r

/-- The text after folding; a text without the next-line character stays as it is. -/
def folded (s : String) : String :=
  if s.toList.any isNextLine then String.ofList (foldLines 0 0 s.toList) else s

/-- A document mark with a gap after it. -/
def startsWithMark (cs : List Char) : Bool :=
  (cs.take 3 == ['-', '-', '-'] || cs.take 3 == ['.', '.', '.']) &&
    (cs.drop 3).head?.any fun c => c = ' ' || isNextLine c

/-- A line after the first starts with a document mark, so that the text would end there. -/
def hasInnerMark : List Char → Bool
  | [] => false
  | c :: r => (isNextLine c && startsWithMark r) || hasInnerMark r

/-- A string in the style that it needs. -/
def stringText (indent : Nat) (text : String) : String :=
  let s := folded text
  match Style.ofString s with
  | .plain => s
  | .single => singleQuoted indent s
  | .double => doubleQuoted s
  | .literal => literalText indent s

/-! ## Documents -/

/-- The next multiple of four. -/
def nextIndent (n : Nat) : Nat := 4 * ((n + 4) / 4)

/-- A key of one line and at most 128 bytes stands before its colon; any other after a question
mark. -/
def isSimpleKey (key : String) : Bool := key.utf8ByteSize ≤ 128 && !key.toList.any isBreak

/-- A text with the end of its last line. A literal block may have it already. -/
def endLine (text : String) : String :=
  if text.toList.getLast?.any isBreak then text else text ++ "\n"

/-- Puts a mark into the indentation of a block's first line. -/
def markFirst (indent : Nat) (mark : String) (block : String) : String :=
  pad indent ++ mark ++ (block.drop (indent + mark.length)).toString

/-- The text of a value that fits behind a key or a mark; `none` for a block. -/
def inlineText? (indent : Nat) : Json → Option String
  | .null => some "null"
  | .bool b => some (if b then "true" else "false")
  | .number literal => some literal
  | .string s => some (stringText indent s)
  | .array [] => some "[]"
  | .object [] => some "\x7b\x7d"
  | .array (_ :: _) => none
  | .object (_ :: _) => none

mutual

/-- The text of a mapping or a sequence whose lines start at column `indent`. -/
def blockText (indent : Nat) : Json → String
  | .array items => String.join (itemTexts indent items)
  | .object fields => String.join (fieldTexts indent fields)
  | _ => ""

/-- The items of a sequence. -/
def itemTexts (indent : Nat) : List Json → List String
  | [] => []
  | item :: rest =>
    (match inlineText? (indent + 2) item with
      | some text => pad indent ++ "- " ++ endLine text
      | none => markFirst indent "- " (blockText (indent + 2) item)) :: itemTexts indent rest

/-- The fields of a mapping. -/
def fieldTexts (indent : Nat) : List (String × Json) → List String
  | [] => []
  | (key, value) :: rest =>
    let inner := nextIndent indent
    let text :=
      if isSimpleKey key then
        pad indent ++ stringText inner key ++ ":" ++
          match inlineText? inner value with
          | some text => " " ++ endLine text
          | none => "\n" ++ blockText inner value
      else
        pad indent ++ "? " ++ endLine (stringText inner key) ++
          match inlineText? inner value with
          | some text => pad indent ++ ": " ++ endLine text
          | none => markFirst indent ":" (blockText inner value)
    text :: fieldTexts indent rest

end

mutual

/-- Every string can stand in a document, and no key is longer than a reader allows. -/
def isWritable : Json → Bool
  | .string s => s.toList.all (fun c => isReadable c || c.toNat < 0x20) && !hasInnerMark s.toList
  | .array items => itemsWritable items
  | .object fields => fieldsWritable fields
  | _ => true

/-- Every item can be written. -/
def itemsWritable : List Json → Bool
  | [] => true
  | item :: rest => isWritable item && itemsWritable rest

/-- Every field can be written. A key takes one line and at most 1024 characters in its quoted form. -/
def fieldsWritable : List (String × Json) → Bool
  | [] => true
  | (key, value) :: rest =>
    isWritable (.string key) && !key.toList.any isNextLine && (Json.quote key).length ≤ 1024 &&
      isWritable value && fieldsWritable rest

end

/-- The document of a value. -/
def write? (value : Json) : Option String :=
  if isWritable value then
    some (match inlineText? 4 value with
      | some text => endLine text
      | none => blockText 0 value)
  else none

end ScriptSplit.Yaml
