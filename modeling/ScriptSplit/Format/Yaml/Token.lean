import ScriptSplit.Format.Yaml.ScalarText

/-!
# Tokens of YAML

The scanner turns indentation into tokens. A key shows itself only by the colon after it, so the place
of each possible key is kept until the colon comes or can no longer come. Tokens are looked for only as
far as they are needed.

* `Yaml.Token`: a token.
* `Yaml.Scan`: the state of the scanner; `Yaml.Scan.fetch?`: one token further.
* `Yaml.Scan.peek?`: the token that comes next; `Yaml.Scan.next`: past it.
-/

namespace ScriptSplit.Yaml

/-- A token. -/
inductive Token where
  | version (major minor : Nat)
  | tagHandle (handle start : String)
  | documentStart
  | documentEnd
  | streamEnd
  | blockSequence
  | blockMapping
  | blockEnd
  | flowSequence
  | flowSequenceEnd
  | flowMapping
  | flowMappingEnd
  | blockEntry
  | flowEntry
  | key
  | value
  | reference (name : String)
  | anchor (name : String)
  | tag (handle suffix : String)
  /-- A scalar; a plain one has neither quotes nor a bar. -/
  | scalar (text : String) (plain : Bool)
  deriving DecidableEq, Repr

/-- A place where a key may start. -/
structure KeyPlace where
  /-- A key may still turn out to have started there. -/
  isPossible : Bool
  /-- Nothing but a key can stand there. -/
  isRequired : Bool
  /-- The number of tokens before the key. -/
  number : Nat
  index : Nat
  line : Nat
  column : Nat

/-- The place of no key. -/
def KeyPlace.none : KeyPlace := ⟨false, false, 0, 0, 0, 0⟩

/-- The state of the scanner. -/
structure Scan where
  cursor : Cursor
  /-- The tokens that were found and not used. -/
  queue : List Token
  /-- The number of tokens that were used. -/
  used : Nat
  indent : Int
  /-- The indentations around the present one. -/
  outer : List Int
  /-- A key may start here. -/
  keyAllowed : Bool
  /-- The possible key of the present level. -/
  keyPlace : KeyPlace
  /-- The possible keys of the levels around; there is one for each open bracket. -/
  outerKeys : List KeyPlace
  /-- The numbers of the tokens that wait for a colon, with the depths of their levels. -/
  waiting : List (Nat × Nat)

namespace Scan

/-- Before the first character. -/
def start (t : Source) : Scan := ⟨.start t, [], 0, -1, [], true, .none, [], []⟩

/-- The number of open brackets and braces. -/
def depth (s : Scan) : Nat := s.outerKeys.length

/-- Inside brackets or braces. -/
def inFlow (s : Scan) : Bool := 0 < s.depth

/-- The number of the token that comes next. -/
def number (s : Scan) : Nat := s.used + s.queue.length

/-- Adds a token at the end. -/
def emit (t : Token) (s : Scan) : Scan := { s with queue := s.queue ++ [t] }

/-- Adds a token before the one of a number; if that was used already, at the end. -/
def emitAt (n : Nat) (t : Token) (s : Scan) : Scan :=
  if n < s.used then s.emit t
  else { s with queue := s.queue.take (n - s.used) ++ t :: s.queue.drop (n - s.used) }

/-- Moves on by some characters of the line. -/
def advance (n : Nat) (s : Scan) : Scan := { s with cursor := s.cursor.skipMany n }

/-- How deeply blocks and brackets may be nested. -/
def maxDepth : Nat := 10000

/-- Opens a block that starts at a column to the right of the present one. -/
def openBlock? (column : Nat) (number : Nat) (t : Token) (s : Scan) : Option Scan :=
  if s.inFlow || (column : Int) ≤ s.indent then some s
  else if maxDepth ≤ s.outer.length then none
  else some (emitAt number t { s with outer := s.indent :: s.outer, indent := column })

/-- The indentations to the right of a column, their number and what is left. -/
def closing (column : Int) : (indent : Int) → List Int → Nat × Int × List Int
  | indent, [] => if column < indent then (1, -1, []) else (0, indent, [])
  | indent, o :: outer =>
    if column < indent then
      let (n, i, r) := closing column o outer
      (n + 1, i, r)
    else (0, indent, o :: outer)

/-- Closes the blocks that start to the right of a column. -/
def closeBlocks (column : Int) (s : Scan) : Scan :=
  if s.inFlow then s
  else
    let (n, indent, outer) := closing column s.indent s.outer
    { s with queue := s.queue ++ List.replicate n Token.blockEnd, indent := indent, outer := outer }

/-! ## Possible keys -/

/-- The token of a number no longer waits for a colon. -/
def settle (n : Nat) (s : Scan) : Scan := { s with waiting := s.waiting.filter fun w => w.1 ≠ n }

/-- Gives up the possible key, unless it is required. -/
def dropKey? (s : Scan) : Option Scan :=
  if !s.keyPlace.isPossible then some s
  else if s.keyPlace.isRequired then none
  else some (settle s.keyPlace.number { s with keyPlace := { s.keyPlace with isPossible := false } })

/-- Keeps the present place as that of a possible key. -/
def saveKey? (s : Scan) : Option Scan :=
  if s.keyAllowed then do
    let isRequired := !s.inFlow && s.indent = (s.cursor.column : Int)
    let s ← s.dropKey?
    let c := s.cursor
    let s := s.settle s.number
    some { s with
      keyPlace := ⟨true, isRequired, s.number, c.index, c.line, c.column⟩
      waiting := (s.number, s.depth) :: s.waiting }
  else some s

/-- A key stays on one line and within 1024 characters. -/
def reaches (k : KeyPlace) (c : Cursor) : Bool := !(k.line < c.line || k.index + 1024 < c.index)

/-- A colon at the present place would make a key of what started at a place. Where a key is required,
it must not be out of reach. -/
def isKey? (k : KeyPlace) (s : Scan) : Option Bool :=
  if !k.isPossible then some false
  else if reaches k s.cursor then some true
  else if k.isRequired then none
  else some false

/-- The possible key of a level. -/
def keyAt? (s : Scan) (depth : Nat) : Option KeyPlace := (s.keyPlace :: s.outerKeys).reverse[depth]?

/-! ## Between tokens -/

/-- Skips blanks, comments and line breaks. A tab does not indent a block. Where the characters at hand
were read in behind a byte order mark, the first one of each line does not count. -/
def skipSpace? : (fuel : Nat) → Scan → Option Scan
  | 0, _ => none
  | fuel + 1, s => do
    let c ← s.cursor.need? 1
    let c := if c.column = 0 && c.afterMark then c.skip else c
    let c ← c.skipWhile? fun x => x = ' ' || (x = '\t' && (s.inFlow || !s.keyAllowed))
    let c ← if c.head? = some '#' then c.skipComments? (2 * c.size + 2) 0 else some c
    if c.head?.any isBreak then
      let c ← c.skipBreak?
      skipSpace? fuel { s with cursor := c, keyAllowed := s.keyAllowed || !s.inFlow }
    else some { s with cursor := c }

/-! ## Tokens -/

/-- The end of the text. -/
def streamEnd? (s : Scan) : Option Scan := do
  let c := s.cursor
  let c := if c.column = 0 then c else { c with column := 0, line := c.line + 1 }
  let s ← ({ s with cursor := c }.closeBlocks (-1)).dropKey?
  some ({ s with keyAllowed := false }.emit .streamEnd)

/-- The start or the end of a document. -/
def documentMark? (t : Token) (s : Scan) : Option Scan := do
  let s ← (s.closeBlocks (-1)).dropKey?
  some ({ s with keyAllowed := false }.advance 3 |>.emit t)

/-- An opening bracket or brace. -/
def openFlow? (t : Token) (s : Scan) : Option Scan := do
  let s ← s.saveKey?
  guard (s.depth < maxDepth)
  some ({ s with
    outerKeys := s.keyPlace :: s.outerKeys
    keyPlace := { KeyPlace.none with number := s.number }
    keyAllowed := true }.advance 1 |>.emit t)

/-- A closing bracket or brace. The token that the level stands for no longer waits for a colon. -/
def closeFlow? (t : Token) (s : Scan) : Option Scan := do
  let s ← s.dropKey?
  let s := match s.outerKeys with
    | k :: outer => settle s.keyPlace.number { s with keyPlace := k, outerKeys := outer }
    | [] => s
  some ({ s with keyAllowed := false }.advance 1 |>.emit t)

/-- A comma between brackets or braces. -/
def flowComma? (s : Scan) : Option Scan := do
  let s ← s.dropKey?
  some ({ s with keyAllowed := true }.advance 1 |>.emit .flowEntry)

/-- The hyphen of a sequence. -/
def blockHyphen? (s : Scan) : Option Scan := do
  guard (s.inFlow || s.keyAllowed)
  let s ← s.openBlock? s.cursor.column s.number .blockSequence
  let s ← s.dropKey?
  some ({ s with keyAllowed := true }.advance 1 |>.emit .blockEntry)

/-- The question mark before a key. -/
def key? (s : Scan) : Option Scan := do
  guard (s.inFlow || s.keyAllowed)
  let s ← s.openBlock? s.cursor.column s.number .blockMapping
  let s ← s.dropKey?
  some ({ s with keyAllowed := !s.inFlow }.advance 1 |>.emit .key)

/-- The colon after a key. -/
def value? (s : Scan) : Option Scan := do
  let k := s.keyPlace
  if ← s.isKey? k then
    let s ← (s.emitAt k.number .key).openBlock? k.column k.number .blockMapping
    let s := settle k.number { s with keyPlace := { k with isPossible := false }, keyAllowed := false }
    some (s.advance 1 |>.emit .value)
  else
    guard (s.inFlow || s.keyAllowed)
    let s := { s with keyPlace := { k with isPossible := false } }
    let s ← s.openBlock? s.cursor.column s.number .blockMapping
    some ({ s with keyAllowed := !s.inFlow }.advance 1 |>.emit .value)

/-- What may follow the name of an anchor. -/
def endsAnchor : List Char → Bool
  | [] => true
  | c :: _ => isBlankChar c || isBreak c || c ∈ ['?', ':', ',', ']', '\x7d', '%', '@', '\x60']

/-- An anchor or a reference. -/
def anchor? (make : String → Token) (s : Scan) : Option Scan := do
  let s ← s.saveKey?
  let (name, c) ← s.cursor.skip.takeWhile? isNameChar
  guard (!name.isEmpty && endsAnchor c.rest)
  some ({ s with keyAllowed := false, cursor := c }.emit (make (String.ofList name)))

/-! ## Tags -/

/-- Characters of a tag, besides those that are escaped. -/
def isTagChar (c : Char) : Bool := isNameChar c || c ∈ ";/?:@&=+$.,!~*'()[]".toList

/-- The number of bytes of a character that starts with a byte. -/
def sizeFrom? (n : Nat) : Option Nat := announcedSize? n.toUInt8

/-- A byte as a percent sign and two digits. -/
def percentByte? (c : Cursor) : Option (Nat × Cursor) := do
  let c ← c.need? 3
  match c.rest with
  | '%' :: a :: b :: _ => do
    let n ← natInBase? 16 [a, b]
    some (n, c.skipMany 3)
  | _ => none

/-- The bytes of a character after its first one. -/
def percentTail? : (count : Nat) → Cursor → Option (List Char × Cursor)
  | 0, c => some ([], c)
  | count + 1, c => do
    let (n, c) ← percentByte? c
    guard (128 ≤ n && n < 192)
    let (more, c) ← percentTail? count c
    some (Char.ofNat n :: more, c)

/-- The bytes of a character, each with its percent sign. -/
def percentChar? (c : Cursor) : Option (List Char × Cursor) := do
  let (n, c) ← percentByte? c
  let size ← sizeFrom? n
  let (more, c) ← percentTail? (size - 1) c
  some (Char.ofNat n :: more, c)

/-- The characters of a tag; an escaped one counts as its bytes. -/
def tagChars? : (fuel : Nat) → Cursor → Option (List Char × Cursor)
  | 0, _ => none
  | fuel + 1, c => do
    let c ← c.need? 1
    match c.rest with
    | '%' :: _ => do
      let (xs, c) ← percentChar? c
      let (more, c) ← tagChars? fuel c
      some (xs ++ more, c)
    | x :: _ =>
      if isTagChar x then do
        let (more, c) ← tagChars? fuel c.skip
        some (x :: more, c)
      else some ([], c)
    | [] => some ([], c)

/-- The characters of a tag. -/
def tagText? (c : Cursor) : Option (String × Cursor) :=
  (tagChars? (c.size + 1) c).map fun (cs, c) => (String.ofList cs, c)

/-- An exclamation mark with the name after it, and whether another mark closes the name. -/
def tagHandle? (c : Cursor) : Option (String × Bool × Cursor) := do
  let c ← c.need? 1
  guard (c.head? = some '!')
  let (name, c) ← c.skip.takeWhile? isNameChar
  if c.head? = some '!' then some ("!" ++ String.ofList name ++ "!", true, c.skip)
  else some ("!" ++ String.ofList name, false, c)

/-- The handle and the suffix of a tag. -/
def tagParts? (c : Cursor) : Option (String × String × Cursor) := do
  let c ← c.need? 2
  if c.rest[1]? = some '<' then
    let (uri, c) ← tagText? (c.skipMany 2)
    guard (uri ≠ "" && c.head? = some '>')
    some ("", uri, c.skip)
  else
    let (handle, isClosed, c) ← tagHandle? c
    let (text, c) ← tagText? c
    if isClosed then
      guard (text ≠ "")
      some (handle, text, c)
    else
      let suffix := String.ofList (handle.toList.drop 1) ++ text
      if suffix = "" then some ("", "!", c) else some ("!", suffix, c)

/-- A tag. -/
def tag? (s : Scan) : Option Scan := do
  let s ← s.saveKey?
  let (handle, suffix, c) ← tagParts? s.cursor
  let c ← c.need? 1
  guard c.isAtBlank
  some ({ s with keyAllowed := false, cursor := c }.emit (.tag handle suffix))

/-! ## Scalars -/

/-- A scalar below a bar or an angle. -/
def block? (literal : Bool) (s : Scan) : Option Scan := do
  let s ← s.dropKey?
  let (text, c) ← blockScalar? literal s.indent s.cursor
  some ({ s with keyAllowed := true, cursor := c }.emit (.scalar text false))

/-- A scalar between quotes. -/
def quotedToken? (single : Bool) (s : Scan) : Option Scan := do
  let s ← s.saveKey?
  let (text, c) ← quotedScalar? single s.cursor
  some ({ s with keyAllowed := false, cursor := c }.emit (.scalar text false))

/-- A plain scalar. -/
def plain? (s : Scan) : Option Scan := do
  let s ← s.saveKey?
  let (text, broken, c) ← plainScalar? s.inFlow s.indent s.cursor
  some ({ s with keyAllowed := broken, cursor := c }.emit (.scalar text true))

/-! ## Directives -/

/-- A number of one or two digits. -/
def versionNumber? (c : Cursor) : Option (Nat × Cursor) := do
  let (ds, c) ← c.takeWhile? Char.isDigit
  guard (1 ≤ ds.length && ds.length ≤ 2)
  some (Decimal.ofDigits ds, c)

/-- The version of a document. -/
def version? (c : Cursor) : Option (Token × Cursor) := do
  let (major, c) ← versionNumber? (← c.skipWhile? isBlankChar)
  guard (c.head? = some '.')
  let (minor, c) ← versionNumber? c.skip
  some (.version major minor, c)

/-- The meaning of a handle. -/
def handleMeaning? (c : Cursor) : Option (Token × Cursor) := do
  let (handle, isClosed, c) ← tagHandle? (← c.skipWhile? isBlankChar)
  guard (isClosed || handle = "!")
  let c ← c.need? 1
  guard (c.head?.any isBlankChar)
  let (start, c) ← tagText? (← c.skipWhile? isBlankChar)
  let c ← c.need? 1
  guard (start ≠ "" && c.isAtBlank)
  some (.tagHandle handle start, c)

/-- A directive. -/
def directive? (s : Scan) : Option Scan := do
  let s ← (s.closeBlocks (-1)).dropKey?
  let (name, c) ← s.cursor.skip.takeWhile? isNameChar
  guard c.isAtBlank
  let (t, c) ← match String.ofList name with
    | "YAML" => version? c
    | "TAG" => handleMeaning? c
    | _ => none
  let c ← c.skipWhile? isBlankChar
  let c ← if c.head? = some '#' then c.skipRest? else some c
  guard c.isAtBreak
  some ({ s with keyAllowed := false, cursor := ← c.skipBreak? }.emit t)

/-! ## One after the other -/

/-- Characters that start no plain scalar. -/
def isIndicator (c : Char) : Bool := c ∈ "-?:,[]\x7b\x7d#&*!|>'\x22%@\x60".toList

/-- One token further inside a document, at a character that is neither blank nor in a comment. -/
def content? (c : Char) (r : List Char) (s : Scan) : Option Scan :=
  if c = '[' then s.openFlow? .flowSequence
  else if c = '\x7b' then s.openFlow? .flowMapping
  else if c = ']' then s.closeFlow? .flowSequenceEnd
  else if c = '\x7d' then s.closeFlow? .flowMappingEnd
  else if c = ',' then s.flowComma?
  else if c = '-' && blankOrEnd r then s.blockHyphen?
  else if c = '?' && (s.inFlow || blankOrEnd r) then s.key?
  else if c = ':' && (s.inFlow || blankOrEnd r) then s.value?
  else if c = '*' then s.anchor? .reference
  else if c = '&' then s.anchor? .anchor
  else if c = '!' then s.tag?
  else if c = '|' && !s.inFlow then s.block? true
  else if c = '>' && !s.inFlow then s.block? false
  else if c = '\x27' then s.quotedToken? true
  else if c = '\x22' then s.quotedToken? false
  else if !(isIndicator c || isBlankChar c) || (c = '-' && !r.head?.any isBlankChar) ||
      (!s.inFlow && (c = '?' || c = ':') && !blankOrEnd r) then s.plain?
  else none

/-- Skips a comment on the line of the last token; after a hyphen it belongs to what follows. -/
def skipLineComment? (s : Scan) : Option Scan :=
  if s.queue.getLast? = some .blockEntry then some s
  else s.cursor.skipLineComment?.map fun c => { s with cursor := c }

/-- One token further. -/
def fetch? (s : Scan) : Option Scan := do
  let c ← s.cursor.need? 1
  let s ← { s with cursor := c }.skipSpace? (c.size + 2)
  let s := s.closeBlocks s.cursor.column
  let c ← s.cursor.need? 4
  let s := { s with cursor := c }
  match c.rest with
  | [] => s.streamEnd?
  | x :: r =>
    if c.column = 0 && x = '%' then s.directive?
    else if c.isAtMark then s.documentMark? (if x = '-' then .documentStart else .documentEnd)
    else (s.content? x r).bind skipLineComment?

/-- The token that comes next may still turn out to be a key. -/
def headWaits? (s : Scan) : Option Bool :=
  match s.waiting.lookup s.used with
  | none => some false
  | some depth =>
    match s.keyAt? depth with
    | some k => s.isKey? k
    | none => some false

/-- Looks for tokens until there are three of them and the first one is settled. -/
def fill? : (fuel : Nat) → Scan → Option Scan
  | 0, _ => none
  | fuel + 1, s =>
    if s.queue.length < 3 then s.fetch?.bind (fill? fuel)
    else do
      if ← s.headWaits? then s.fetch?.bind (fill? fuel)
      else some s

/-- The token that comes next. Each token but those at the end uses up a character. -/
def peek? (s : Scan) : Option (Token × Scan) := do
  let s ← s.fill? (s.cursor.size + 5)
  s.queue.head?.map fun t => (t, s)

/-- Past the token that comes next. -/
def next (s : Scan) : Scan := { s with queue := s.queue.tail, used := s.used + 1 }

end Scan

end ScriptSplit.Yaml
