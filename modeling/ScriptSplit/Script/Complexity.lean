import ScriptSplit.Script.Pattern

/-!
# Complexity

The score of a body is one, plus one for each branching token and each ternary operator.

* `branchTokens`: the nine tokens.
* `ternaries`: question marks that a colon on the same line completes.
* `complexity`: the score.
-/

namespace ScriptSplit.Script

/-- What has to follow the word of a branching token. -/
inductive TokenEnd where
  /-- The given byte, after optional blanks. -/
  | byte (b : UInt8)
  /-- At least one blank. -/
  | blank
  /-- A word boundary. -/
  | boundary

/-- A branching token: a word and what has to follow it. -/
structure BranchToken where
  word : String
  ending : TokenEnd

/-- Branching, looping and exception flow. -/
def branchTokens : List BranchToken :=
  [⟨"if", .byte openParen⟩, ⟨"else", .boundary⟩, ⟨"for", .byte openParen⟩,
   ⟨"while", .byte openParen⟩, ⟨"switch", .byte openParen⟩, ⟨"case", .blank⟩,
   ⟨"try", .byte openBrace⟩, ⟨"catch", .byte openParen⟩, ⟨"throw", .boundary⟩]

/-- The pattern of a branching token; its word starts at a word boundary. -/
def BranchToken.pattern (k : BranchToken) : Pattern Unit := fun before t =>
  if atBoundary before t then do
    let r ← keyword? k.word t
    match k.ending with
    | .byte b => (byte? b (blanks r)).map fun rest => ((), rest)
    | .blank => (blanks1 r).map fun rest => ((), rest)
    | .boundary => if r.head?.any isWordByte then none else some ((), r)
  else none

/-- The question mark. -/
def questionMark : UInt8 := 0x3f

/-- The rest of the line has a colon. -/
def colonOnLine (t : Bytes) : Bool := (t.takeWhile (· != newlineByte)).contains 0x3a

/-- Counts the question marks that a colon on the same line completes. A question mark next to
another one or before a point is a different operator. -/
def ternariesFrom : (before : Option UInt8) → Bytes → Nat
  | _, [] => 0
  | before, b :: r =>
    let counts := b == questionMark && !(r.head? == some 0x2e || r.head? == some questionMark) &&
      before != some questionMark && colonOnLine r
    (if counts then 1 else 0) + ternariesFrom (some b) r

/-- The number of ternary operators of a body. -/
def ternaries (body : Bytes) : Nat := ternariesFrom none body

/-- The score of a body. -/
def complexity (body : Bytes) : Nat :=
  1 + branchTokens.foldr (fun k n => (occurrences k.pattern body).length + n) 0 + ternaries body

end ScriptSplit.Script
