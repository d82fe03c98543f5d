import ScriptSplit.Text.Utf8

/-!
# Wildcards

Patterns for one name: a star for any text, a question mark for any character, classes in brackets and
a backslash before a character that stands for itself.

* `Wildcard.parse?`: the pieces of a pattern; a malformed pattern has none.
* `Wildcard.chunks`: the runs of pieces between stars.
* `Wildcard.accepts`: a name matches.
-/

namespace ScriptSplit.Wildcard

/-- A piece of a pattern. -/
inductive Piece where
  | star
  | any
  | char (c : Char)
  | oneOf (negated : Bool) (ranges : List (Char × Char))
  deriving DecidableEq, Repr

/-- A character of a class. Something has to follow it. -/
def classChar? : List Char → Option (Char × List Char)
  | [] => none
  | '-' :: _ => none
  | ']' :: _ => none
  | '\x5c' :: c :: d :: r => some (c, d :: r)
  | '\x5c' :: _ => none
  | c :: d :: r => some (c, d :: r)
  | [_] => none

/-- The ranges of a class up to its closing bracket; `found` tells whether there was one already. -/
def classRanges? : (fuel : Nat) → (found : Bool) → List Char → Option (List (Char × Char) × List Char)
  | 0, _, _ => none
  | fuel + 1, found, cs =>
    if found && cs.head? = some ']' then some ([], cs.drop 1)
    else do
      let (lo, r) ← classChar? cs
      let (hi, r) ← match r with
        | '-' :: r => classChar? r
        | r => some (lo, r)
      let (rest, r) ← classRanges? fuel true r
      some ((lo, hi) :: rest, r)

/-- The pieces of a pattern. Each one uses up a character, so the length bounds their number. -/
def pieces? : (fuel : Nat) → List Char → Option (List Piece)
  | _, [] => some []
  | 0, _ => none
  | fuel + 1, c :: r =>
    match c with
    | '*' => (pieces? fuel r).map (.star :: ·)
    | '?' => (pieces? fuel r).map (.any :: ·)
    | '[' => do
      let (negated, r) := match r with
        | '^' :: r => (true, r)
        | r => (false, r)
      let (ranges, r) ← classRanges? (r.length + 1) false r
      (pieces? fuel r).map (.oneOf negated ranges :: ·)
    | '\x5c' =>
      match r with
      | [] => none
      | d :: r => (pieces? fuel r).map (.char d :: ·)
    | _ => (pieces? fuel r).map (.char c :: ·)

/-- The pieces of a pattern. -/
def parse? (pattern : String) : Option (List Piece) := pieces? pattern.length pattern.toList

/-! ## Matching

Names are matched as bytes. A star may end within the encoding of a character; the bytes after it then
count one by one as replacement characters. -/

/-- A run of pieces without a star in it. -/
structure Chunk where
  /-- A star stands before the run. -/
  starred : Bool
  pieces : List Piece
  deriving DecidableEq, Repr

/-- The chunks of a pattern. Stars side by side count once. -/
def chunks (pieces : List Piece) : List Chunk :=
  pieces.foldr add []
where
  /-- Puts a piece before chunks, the first of which may still grow to the left. -/
  add (p : Piece) (cs : List Chunk) : List Chunk :=
    match p, cs with
    | .star, ⟨false, ps⟩ :: rest => ⟨true, ps⟩ :: rest
    | .star, ⟨true, ps⟩ :: rest => ⟨true, ps⟩ :: rest
    | .star, [] => [⟨true, []⟩]
    | p, ⟨false, ps⟩ :: rest => ⟨false, p :: ps⟩ :: rest
    | p, cs => ⟨false, [p]⟩ :: cs

/-- The first character of a text, if it is well formed, and the bytes after it. -/
def firstChar? : Bytes → Option (Char × Bytes)
  | [] => none
  | a :: t =>
    let (c, rest) := Utf8.step a t
    some (c.getD (Char.ofNat 0xfffd), rest)

/-- The bytes after those that a piece takes up. A star takes up none. -/
def Piece.after? (p : Piece) (t : Bytes) : Option Bytes :=
  match p with
  | .star => some t
  | .any => (firstChar? t).map Prod.snd
  | .char c => Bytes.after? (Bytes.ofString c.toString) t
  | .oneOf negated ranges => do
    let (c, rest) ← firstChar? t
    if (ranges.any fun r => r.1 ≤ c && c ≤ r.2) != negated then some rest else none

/-- The first end of a text that passes a test, which gives a result. -/
def firstTail? (test : Bytes → Option Bytes) : Bytes → Option Bytes
  | [] => test []
  | a :: t =>
    match test (a :: t) with
    | some r => some r
    | none => firstTail? test t

/-- The chunks match the whole text. Each takes the first place where it fits, and the last one has to
reach the end. -/
def matchesChunks : List Chunk → Bytes → Bool
  | [], t => t.isEmpty
  | c :: rest, t =>
    if c.starred && c.pieces.isEmpty then true
    else
      let fits := fun (t : Bytes) => do
        let r ← c.pieces.foldlM (fun t p => p.after? t) t
        if r.isEmpty || !rest.isEmpty then some r else none
      match if c.starred then firstTail? fits t else fits t with
      | some r => matchesChunks rest r
      | none => false

/-- A name without a slash matches a pattern. A malformed pattern matches nothing. -/
def accepts (pattern name : String) : Bool :=
  match parse? pattern with
  | some ps => matchesChunks (chunks ps) (Bytes.ofString name)
  | none => false

end ScriptSplit.Wildcard
