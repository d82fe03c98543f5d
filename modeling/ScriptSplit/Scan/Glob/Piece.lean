/-!
# Pieces of a glob

A glob is read from left to right into runs of plain text, wildcards, classes and the marks of
alternatives. A null character ends the text that it stands in and, between two pieces, the glob.

* `Glob.Piece`: what a glob is written with.
* `Glob.pieces?`: the pieces of a glob, or why it has no meaning.
-/

namespace ScriptSplit.Glob

/-- A piece of a glob. -/
inductive Piece where
  /-- Characters that stand for themselves. -/
  | text (chars : List Char)
  /-- Any text without a slash. -/
  | star
  /-- Any text. -/
  | super
  /-- Any character but a slash. -/
  | single
  | list (negated : Bool) (chars : List Char)
  | range (negated : Bool) (lo hi : Char)
  | opening
  | comma
  | closing
  deriving DecidableEq, Repr

/-- Why a glob has no meaning. -/
inductive GlobError where
  | unexpectedEnd
  | notClosed
  /-- The first character of a range comes after its last. -/
  | badRange (lo hi : Char)
  | emptyClass
  /-- The replacement character is no character of a glob. -/
  | unreadable
  deriving DecidableEq, Repr

/-- The text of a glob error. -/
def GlobError.message : GlobError → String
  | unexpectedEnd => "unexpected end of input"
  | notClosed => "expected close range character"
  | badRange lo hi =>
    "hi character '" ++ String.singleton hi ++ "' should be greater than lo '" ++ String.singleton lo ++ "'"
  | emptyClass => "could not parse range"
  | unreadable => "could not read rune"

/-- The character that stands for unreadable input. -/
def replacement : Char := Char.ofNat 0xfffd

/-- The character that ends a run of text. -/
def terminator : Char := Char.ofNat 0

/-- The characters before the first one that stops, and what follows. A backslash takes the next
character as it is; a terminator ends the run and is used up. -/
def textRun (stops : Char → Bool) : List Char → Except GlobError (List Char × List Char)
  | [] => .ok ([], [])
  | '\x5c' :: c :: r =>
    if c = terminator then .ok ([], r)
    else if c = replacement then .error .unreadable
    else (textRun stops r).map fun (cs, rest) => (c :: cs, rest)
  | c :: r =>
    if c = terminator then .ok ([], r)
    else if c = replacement then .error .unreadable
    else if c = '\x5c' then .ok ([], r)
    else if stops c then .ok ([], c :: r)
    else (textRun stops r).map fun (cs, rest) => (c :: cs, rest)

/-- Reads one character of a class. -/
def classChar? : List Char → Except GlobError (Char × List Char)
  | [] => .error .unexpectedEnd
  | c :: r => if c = terminator || c = replacement then .error .unexpectedEnd else .ok (c, r)

/-- A class after its opening bracket. -/
def class? (cs : List Char) : Except GlobError (Piece × List Char) := do
  let (first, afterFirst) ← classChar? cs
  let negated := first = '!'
  let cs := if negated then afterFirst else cs
  let (lo, r) ← classChar? cs
  match r with
  | '-' :: r =>
    let (hi, r) ← classChar? r
    let (close, r) ← classChar? r
    if close ≠ ']' then .error .notClosed
    else if hi < lo then .error (.badRange lo hi)
    else .ok (.range negated lo hi, r)
  | _ =>
    match textRun (· = ']') cs with
    | .error _ => .error .unexpectedEnd
    | .ok (chars, r) =>
      let (close, r) ← classChar? r
      if close ≠ ']' then .error .notClosed
      else if chars.isEmpty then .error .emptyClass
      else .ok (.list negated chars, r)

/-- A character ends a run of text outside a class; `depth` counts the open braces. -/
def endsText (depth : Nat) (c : Char) : Bool :=
  c = '?' || c = '*' || c = '[' || c = '\x7b' || (0 < depth && (c = '\x7d' || c = ','))

/-- The pieces of a glob; `depth` counts the open braces. Each piece uses up a character, so the
length bounds their number. -/
def piecesFrom : (fuel depth : Nat) → List Char → Except GlobError (List Piece)
  | 0, _, _ => .ok []
  | _, _, [] => .ok []
  | fuel + 1, depth, c :: r =>
    if c = terminator then .ok []
    else if c = replacement then .error .unreadable
    else if c = '\x7b' then (piecesFrom fuel (depth + 1) r).map (.opening :: ·)
    else if c = ',' && 0 < depth then (piecesFrom fuel depth r).map (.comma :: ·)
    else if c = '\x7d' && 0 < depth then (piecesFrom fuel (depth - 1) r).map (.closing :: ·)
    else if c = '[' then do
      let (p, r) ← class? r
      let rest ← piecesFrom fuel depth r
      pure (p :: rest)
    else if c = '?' then (piecesFrom fuel depth r).map (.single :: ·)
    else if c = '*' then
      match r with
      | '*' :: r => (piecesFrom fuel depth r).map (.super :: ·)
      | r => (piecesFrom fuel depth r).map (.star :: ·)
    else do
      let (chars, r) ← textRun (endsText depth) (c :: r)
      let rest ← piecesFrom fuel depth r
      pure (if chars.isEmpty then rest else .text chars :: rest)

/-- The pieces of a glob, or why it has no meaning. -/
def pieces? (pattern : String) : Except GlobError (List Piece) :=
  piecesFrom pattern.length 0 pattern.toList

end ScriptSplit.Glob
