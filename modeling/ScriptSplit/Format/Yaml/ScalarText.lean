import ScriptSplit.Format.Yaml.Cursor
import ScriptSplit.Format.Yaml.Scalar

/-!
# Texts of YAML scalars

* `Yaml.plainScalar?`: a scalar without quotes.
* `Yaml.quotedScalar?`: a scalar between quotes.
* `Yaml.blockScalar?`: the lines below a bar or an angle.
-/

namespace ScriptSplit.Yaml

/-- Past blanks and line breaks; they count for the text only if more of it follows. A tab may not
stand for the indentation of a plain scalar. -/
def foldBlanks? (indent : Int) : (fuel : Nat) → Folding → Cursor → Option (Folding × Cursor)
  | 0, _, _ => none
  | fuel + 1, f, c =>
    match c.rest with
    | [] => some (f, c)
    | x :: _ =>
      if isBlankChar x then
        if f.broken && (c.column : Int) < indent && x = '\t' then none
        else do foldBlanks? indent fuel (f.blank x) (← c.skip.need? 1)
      else if isBreak x then do
        let c ← c.need? 2
        foldBlanks? indent fuel (f.newline c.lineBreak) (← c.skipLine.need? 1)
      else some (f, c)

/-! ## Plain scalars -/

/-- The character ends a plain scalar. -/
def endsPlain (flow : Bool) (c : Char) (r : List Char) : Bool :=
  (c = ':' && blankOrEnd r) || (flow && c ∈ [',', '?', '[', ']', '\x7b', '\x7d'])

/-- The characters of a plain scalar up to the next blank or line break, or to its end. -/
def plainWord? (flow : Bool) : (fuel : Nat) → Folding → Cursor → Option (Folding × Cursor)
  | 0, _, _ => none
  | fuel + 1, f, c =>
    match c.rest with
    | [] => some (f, c)
    | x :: r =>
      if isBlankChar x || isBreak x || endsPlain flow x r then some (f, c)
      else do plainWord? flow fuel (f.push x) (← c.skip.need? 2)

/-- The words of a plain scalar. -/
def plainFrom? (flow : Bool) (indent : Int) : (fuel : Nat) → Folding → Cursor → Option (Folding × Cursor)
  | 0, _, _ => none
  | fuel + 1, f, c => do
    let c ← c.need? 4
    if c.isAtMark || c.head? = some '#' then some (f, c)
    else
      let (f, c) ← plainWord? flow (c.size + 1) f c
      if c.head?.any fun x => isBlankChar x || isBreak x then
        let (f, c) ← foldBlanks? indent (c.size + 1) f (← c.need? 1)
        if !flow && (c.column : Int) < indent then some (f, c)
        else plainFrom? flow indent fuel f c
      else some (f, c)

/-- A plain scalar below the given indentation: its text, whether a line break came after it, and the
place after both. -/
def plainScalar? (flow : Bool) (indent : Int) (c : Cursor) : Option (String × Bool × Cursor) :=
  (plainFrom? flow (indent + 1) (c.size + 1) .empty c).map fun (f, c) => (f.done, f.broken, c)

/-! ## Quoted scalars -/

/-- The character of an escape of one letter. -/
def letterEscape? (c : Char) : Option Char :=
  match c with
  | '0' => some (Char.ofNat 0)
  | 'a' => some '\x07'
  | 'b' => some '\x08'
  | 't' => some '\t'
  | '\t' => some '\t'
  | 'n' => some '\n'
  | 'v' => some '\x0b'
  | 'f' => some '\x0c'
  | 'r' => some '\r'
  | 'e' => some '\x1b'
  | ' ' => some ' '
  | '\x22' => some '\x22'
  | '\x27' => some '\x27'
  | '\x5c' => some '\x5c'
  | 'N' => some (Char.ofNat 0x85)
  | '_' => some (Char.ofNat 0xa0)
  | 'L' => some (Char.ofNat 0x2028)
  | 'P' => some (Char.ofNat 0x2029)
  | _ => none

/-- The number of digits of an escape that gives a code. -/
def codeLength? (c : Char) : Option Nat :=
  match c with
  | 'x' => some 2
  | 'u' => some 4
  | 'U' => some 8
  | _ => none

/-- The character of a code in hexadecimal digits. -/
def codeChar? (ds : List Char) (width : Nat) : Option Char := do
  guard (ds.length = width)
  let n ← natInBase? 16 ds
  if n.isValidChar then some (Char.ofNat n) else none

/-- An escape from its backslash on: the character, and the place after it. -/
def escape? (c : Cursor) : Option (Char × Cursor) :=
  match c.rest with
  | _ :: x :: _ =>
    match letterEscape? x with
    | some e => some (e, c.skipMany 2)
    | none => do
      let n ← codeLength? x
      let c ← (c.skipMany 2).need? n
      let e ← codeChar? (c.rest.take n) n
      some (e, c.skipMany n)
  | _ => none

/-- The characters of a quoted scalar up to the next blank or line break, or to its closing quote. -/
def quotedWord? (single : Bool) : (fuel : Nat) → Folding → Cursor → Option (Folding × Cursor)
  | 0, _, _ => none
  | fuel + 1, f, c =>
    match c.rest with
    | [] => some (f, c)
    | x :: r =>
      if isBlankChar x || isBreak x then some (f, c)
      else if single && x = '\x27' then
        if r.head? = some '\x27' then do quotedWord? single fuel (f.push x) (← (c.skipMany 2).need? 2)
        else some (f, c)
      else if !single && x = '\x22' then some (f, c)
      else if !single && x = '\x5c' then
        if r.head?.any isBreak then do
          let c ← c.need? 3
          some ({ f.join with broken := true }, c.skip.skipLine)
        else do
          let (e, c) ← escape? c
          quotedWord? single fuel (f.push e) (← c.need? 2)
      else do quotedWord? single fuel (f.push x) (← c.skip.need? 2)

/-- The words of a quoted scalar and its closing quote. -/
def quotedFrom? (single : Bool) : (fuel : Nat) → Folding → Cursor → Option (Folding × Cursor)
  | 0, _, _ => none
  | fuel + 1, f, c => do
    let c ← c.need? 4
    if c.isAtMark || c.rest.isEmpty then none
    else
      let (f, c) ← quotedWord? single (c.size + 1) f c
      let c ← c.need? 1
      if c.head? = some (if single then '\x27' else '\x22') then some (f.join, c.skip)
      else
        let (f, c) ← foldBlanks? 0 (c.size + 1) f c
        quotedFrom? single fuel f.join c

/-- A quoted scalar from its opening quote on. -/
def quotedScalar? (single : Bool) (c : Cursor) : Option (String × Cursor) :=
  (quotedFrom? single (c.size + 1) .empty c.skip).map fun (f, c) => (f.done, c)

/-! ## Block scalars -/

/-- Which line breaks at the end of a block scalar are kept. -/
inductive Chomp where
  | none
  | one
  | all
  deriving DecidableEq, Repr

/-- The chomping mark. -/
def chomp? : Char → Option Chomp
  | '+' => some .all
  | '-' => some .none
  | _ => none

/-- The digit of an extra indentation, which is not zero; none counts as zero. -/
def blockDigit? (c : Cursor) : Option (Nat × Cursor) :=
  match c.rest with
  | d :: _ => if d = '0' then none else if d.isDigit then some (d.toNat - 48, c.skip) else some (0, c)
  | [] => some (0, c)

/-- The marks after a bar or an angle, in either order: the chomping and the extra indentation. -/
def blockMarks? (c : Cursor) : Option (Chomp × Nat × Cursor) := do
  let c ← c.need? 1
  match c.head?.bind chomp? with
  | some m => do
    let (n, c) ← blockDigit? (← c.skip.need? 1)
    some (m, n, c)
  | none => do
    let (n, c) ← blockDigit? c
    if n = 0 then some (.one, 0, c)
    else
      let c ← c.need? 1
      match c.head?.bind chomp? with
      | some m => some (m, n, c.skip)
      | none => some (.one, n, c)

/-- Skips the indentation and the empty lines ahead. An indentation of zero is not yet known: then the
deepest column that is reached sets it. -/
def blockBreaks? (indent : Nat) :
    (fuel : Nat) → (deepest : Nat) → (breaks : List Char) → Cursor → Option (Nat × List Char × Cursor)
  | 0, _, _, _ => none
  | fuel + 1, deepest, breaks, c => do
    let c ← c.need? 1
    let isShallow := indent = 0 || c.column < indent
    match c.rest with
    | x :: _ =>
      if x = ' ' && isShallow then blockBreaks? indent fuel deepest breaks c.skip
      else
        let deepest := max deepest c.column
        if x = '\t' && isShallow then none
        else if isBreak x then
          let c ← c.need? 2
          blockBreaks? indent fuel deepest (breaks ++ c.lineBreak) c.skipLine
        else some (deepest, breaks, c)
    | [] => some (max deepest c.column, breaks, c)

/-- The lines of a block scalar at their indentation. `text` holds what was read, backwards; `leading`
is the last line break and `trailing` those after it. -/
def blockLines? (literal : Bool) (indent : Nat) :
    (fuel : Nat) → (text leading trailing : List Char) → (wasBlank : Bool) → Cursor →
      Option (List Char × List Char × List Char × Cursor)
  | 0, _, _, _, _, _ => none
  | fuel + 1, text, leading, trailing, wasBlank, c =>
    match c.rest with
    | [] => some (text, leading, trailing, c)
    | x :: _ =>
      if c.column ≠ indent then some (text, leading, trailing, c)
      else do
        let isBlank := isBlankChar x
        let folds := !literal && !wasBlank && !isBlank && leading.head? = some '\n'
        let joint := if folds then (if trailing.isEmpty then [' '] else []) else leading
        let (line, c) ← c.takeWhile? fun x => !isBreak x
        let text := line.reverse ++ trailing.reverse ++ joint.reverse ++ text
        let c ← c.need? 2
        let leading := c.lineBreak
        let (_, trailing, c) ← blockBreaks? indent (c.size + 1) 0 [] c.skipLine
        blockLines? literal indent fuel text leading trailing isBlank c

/-- A block scalar from its bar or angle on, inside the given indentation. -/
def blockScalar? (literal : Bool) (parent : Int) (c : Cursor) : Option (String × Cursor) := do
  let (chomp, extra, c) ← blockMarks? c.skip
  let c ← c.skipWhile? isBlankChar
  let c ← if c.head? = some '#' then c.skipRest? else some c
  guard c.isAtBreak
  let c ← c.skipBreak?
  let given := if extra = 0 then 0 else (max parent 0).toNat + extra
  let (deepest, breaks, c) ← blockBreaks? given (c.size + 1) 0 [] c
  let indent := if given = 0 then max (max deepest (parent + 1).toNat) 1 else given
  let (text, leading, trailing, c) ← blockLines? literal indent (c.size + 1) [] [] breaks false (← c.need? 1)
  let tail := match chomp with
    | .none => []
    | .one => leading
    | .all => leading ++ trailing
  some (String.ofList (text.reverse ++ tail), c)

end ScriptSplit.Yaml
