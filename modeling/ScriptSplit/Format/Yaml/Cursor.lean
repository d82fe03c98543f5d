import ScriptSplit.Format.Yaml.Source

/-!
# Places in a YAML text

* `Yaml.Cursor`: the text ahead and where it starts.
* `Yaml.Cursor.need?`: reads in blocks until so many characters are at hand.
* `Yaml.Folding`: the text of a scalar so far, with the line breaks that may still be folded.
-/

namespace ScriptSplit.Yaml

/-- The text ahead, and the place where it starts. -/
structure Cursor where
  rest : List Char
  /-- How many of these characters, and of the marks for the end after them, are at hand. -/
  atHand : Nat
  /-- The sizes of the blocks that are still to be read. -/
  blocks : List Nat
  /-- The blocks lead up to the end of the text. -/
  isSound : Bool
  /-- The characters at hand were read in behind a byte order mark. -/
  afterMark : Bool
  /-- Nothing but blanks came since the last line break. -/
  isFresh : Bool
  index : Nat
  line : Nat
  column : Nat
  /-- The number of characters of the whole text, which bounds every search in it. -/
  size : Nat

/-- The byte order mark. -/
def orderMark : Char := Char.ofNat 0xfeff

namespace Cursor

/-- Before the first character of a text. -/
def start (t : Source) : Cursor := ⟨t.chars, 0, t.blocks, t.isSound, false, false, 0, 0, 0, t.chars.length⟩

/-- Reads in blocks until `n` characters are at hand. After the last one comes a mark for the end. -/
def filled? (n : Nat) (isSound : Bool) : (atHand : Nat) → List Nat → Option (Nat × List Nat)
  | h, [] => if n ≤ h then some (h, []) else if isSound then some (h + 1, []) else none
  | h, b :: bs => if n ≤ h then some (h, b :: bs) else filled? n isSound (h + b) bs

/-- Reads in blocks until `n` characters are at hand; there is nothing to do if they already are. -/
def need? (n : Nat) (c : Cursor) : Option Cursor :=
  if n ≤ c.atHand then some c
  else
    (filled? n c.isSound c.atHand c.blocks).map fun (atHand, blocks) =>
      { c with atHand := atHand, blocks := blocks, afterMark := c.rest.head? = some orderMark }

/-- The character ahead. -/
def head? (c : Cursor) : Option Char := c.rest.head?

/-- One character further on the same line. -/
def skip (c : Cursor) : Cursor :=
  { c with
    rest := c.rest.tail
    atHand := c.atHand - 1
    isFresh := c.isFresh && c.rest.head?.any isBlankChar
    index := c.index + 1
    column := c.column + 1 }

/-- Several characters further on the same line. -/
def skipMany : (n : Nat) → Cursor → Cursor
  | 0, c => c
  | n + 1, c => skipMany n c.skip

/-- At the start of the next line; a text that does not break here stays where it is. -/
def skipLine (c : Cursor) : Cursor :=
  let past := fun (n : Nat) (r : List Char) =>
    { c with rest := r, atHand := c.atHand - n, isFresh := true, index := c.index + n, line := c.line + 1,
             column := 0 }
  match c.rest with
  | '\r' :: '\n' :: r => past 2 r
  | x :: r => if isBreak x then past 1 r else c
  | [] => c

/-- Past all characters of a kind, which are given. -/
def span? (p : Char → Bool) : (fuel : Nat) → Cursor → Option (List Char × Cursor)
  | 0, _ => none
  | fuel + 1, c =>
    match c.rest with
    | [] => some ([], c)
    | x :: _ =>
      if p x then do
        let (xs, c) ← span? p fuel (← c.skip.need? 1)
        some (x :: xs, c)
      else some ([], c)

/-- The characters of a kind that come next. -/
def takeWhile? (p : Char → Bool) (c : Cursor) : Option (List Char × Cursor) := do
  let c ← c.need? 1
  c.span? p (c.size + 1)

/-- Past all characters of a kind. -/
def skipWhile? (p : Char → Bool) (c : Cursor) : Option Cursor := (c.takeWhile? p).map Prod.snd

/-- Past the rest of the line, up to its break. -/
def skipRest? (c : Cursor) : Option Cursor := c.skipWhile? fun x => !isBreak x

/-- Past the line break ahead, if there is one. -/
def skipBreak? (c : Cursor) : Option Cursor :=
  if c.head?.any isBreak then (c.need? 2).map skipLine else some c

/-- The line break ahead as it counts in a scalar. -/
def lineBreak (c : Cursor) : List Char :=
  match c.rest with
  | x :: _ => if x.toNat = 0x2028 || x.toNat = 0x2029 then [x] else if isBreak x then ['\n'] else []
  | [] => []

/-- The end of the text, a blank or a line break comes next. -/
def isAtBlank (c : Cursor) : Bool := blankOrEnd c.rest

/-- The end of the text or a line break comes next. -/
def isAtBreak (c : Cursor) : Bool := breakOrEnd c.rest

/-- A document starts or ends here. -/
def isAtMark (c : Cursor) : Bool := c.column = 0 && isDocumentMark c.rest

/-! ## Comments -/

/-- Past the comments from here on, where `ahead` characters are known to be blanks and line breaks.
The search for the next comment goes 512 characters far. -/
def skipComments? : (fuel ahead : Nat) → Cursor → Option Cursor
  | 0, _, _ => none
  | fuel + 1, ahead, c =>
    if 512 ≤ ahead then some c
    else
      match c.need? (ahead + 1) with
      | none => some c
      | some c =>
        match c.rest[ahead]? with
        | none => some c
        | some x =>
          if isBlankChar x || isBreak x then skipComments? fuel (ahead + 1) c
          else if x = '#' then do
            let c ← (c.skipMany ahead).need? 1
            skipComments? fuel 1 (← c.skipRest?)
          else some c

/-- Past a comment at the end of the line. -/
def skipLineComment? (c : Cursor) : Option Cursor :=
  if c.isFresh then some c else go (c.size + 1) 0 c
where
  /-- The `ahead` characters before the comment are blanks. -/
  go : (fuel ahead : Nat) → Cursor → Option Cursor
    | 0, _, c => some c
    | fuel + 1, ahead, c =>
      if 512 ≤ ahead then some c
      else
        match c.need? (ahead + 1) with
        | none => some c
        | some c =>
          match c.rest[ahead]? with
          | none => some c
          | some x =>
            if isBlankChar x then go fuel (ahead + 1) c
            else if x = '#' then do
              let c ← (c.skipMany ahead).need? 1
              c.skipRest?
            else some c

end Cursor

/-- The text of a scalar so far, backwards, and the blanks and line breaks after it. A single line
break counts as a space, more of them as all but the first. -/
structure Folding where
  text : List Char
  blanks : List Char
  broken : Bool
  leading : List Char
  trailing : List Char

namespace Folding

/-- Nothing read. -/
def empty : Folding := ⟨[], [], false, [], []⟩

/-- One more blank; blanks at the start of a line do not count. -/
def blank (c : Char) (f : Folding) : Folding := if f.broken then f else { f with blanks := c :: f.blanks }

/-- One more line break; blanks before it do not count. -/
def newline (b : List Char) (f : Folding) : Folding :=
  if f.broken then { f with trailing := f.trailing ++ b }
  else { f with blanks := [], broken := true, leading := b }

/-- Folds the blanks and line breaks into the text. -/
def join (f : Folding) : Folding :=
  if f.broken then
    let breaks :=
      if f.leading.head? = some '\n' then (if f.trailing.isEmpty then [' '] else f.trailing)
      else f.leading ++ f.trailing
    ⟨breaks.reverse ++ f.text, [], false, [], []⟩
  else ⟨f.blanks ++ f.text, [], false, [], []⟩

/-- One more character. -/
def push (c : Char) (f : Folding) : Folding :=
  let f := f.join
  { f with text := c :: f.text }

/-- The text, without what may still be folded. -/
def done (f : Folding) : String := String.ofList f.text.reverse

end Folding

end ScriptSplit.Yaml
