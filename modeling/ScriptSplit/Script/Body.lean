import ScriptSplit.Script.Region

/-!
# Bodies

Finds the body of a named function. Three header forms are tried in order: a direct declaration, a
bound function expression, a bound arrow function. The first place of the first form that occurs
decides.

* `Span`: where a body lies; `Span.body` cuts it out.
* `resolve`: the span of a function, or why there is none.
-/

namespace ScriptSplit.Script

/-- Where a body lies: the offset of its header, and its first and last byte. -/
structure Span where
  header : Nat
  first : Nat
  last : Nat
  /-- The body is an expression without braces. -/
  isExpression : Bool
  deriving DecidableEq, Repr

/-- The bytes of a body. -/
def Span.body (s : Span) (t : Bytes) : Bytes := (t.take (s.last + 1)).drop s.first

/-- A byte offset lies in the body. -/
def Span.covers (s : Span) (i : Nat) : Bool := s.first ≤ i && i ≤ s.last

/-- Why a body was not found. -/
inductive ResolveError where
  /-- No header form of the name occurs. -/
  | headerNotFound (name : Bytes)
  /-- The header is followed by no region. -/
  | noRegion (cause : RegionError)
  /-- The arrow is followed by no expression. -/
  | emptyArrow
  deriving DecidableEq, Repr

/-- The text of a resolve error. -/
def ResolveError.message : ResolveError → Bytes
  | .headerNotFound name => name ++ Bytes.ofString ": declaration header not found"
  | .noRegion cause => Bytes.ofString cause.message
  | .emptyArrow => Bytes.ofString "empty arrow body: no opening brace"

/-- The text goes on with at least one blank, after any number of which the test holds. -/
def afterBlanks1 (test : Bytes → Bool) : Bytes → Bool
  | [] => false
  | b :: r => isBlankByte b && (test r || afterBlanks1 test r)

/-- The text goes on with a name, and then as the test says. -/
def afterName (name : Bytes) (test : Bytes → Bool) (t : Bytes) : Bool :=
  match Bytes.after? name t with
  | some r => test r
  | none => false

/-- An opening parenthesis follows after blanks. -/
def opensCall (t : Bytes) : Bool := (blanks t).head? == some openParen

/-- A direct declaration of the name starts here. -/
def startsDeclaration (name : Bytes) (before : Option UInt8) (t : Bytes) : Bool :=
  atBoundary before t &&
    match keyword? "function" t with
    | some r => afterBlanks1 (afterName name opensCall) r
    | none => false

/-- An equals sign follows, and after it, past blanks and an optional `async`, what the test says. -/
def assigns (test : Bytes → Bool) (t : Bytes) : Bool :=
  match byte? equalsSign (blanks t) with
  | some r => test (async (blanks r))
  | none => false

/-- The word `function` stands here on its own. -/
def isFunctionWord (t : Bytes) : Bool :=
  match keyword? "function" t with
  | some r => !(r.head?.any isWordByte)
  | none => false

/-- A binding of the name to a function expression starts here. -/
def startsExpression (name : Bytes) (before : Option UInt8) (t : Bytes) : Bool :=
  atBoundary before t && afterName name (assigns isFunctionWord) t

/-- A binding of the name to a parenthesis starts here. -/
def startsLambda (name : Bytes) (before : Option UInt8) (t : Bytes) : Bool :=
  atBoundary before t && afterName name (assigns fun r => r.head? == some openParen) t

/-- The braced body that follows offset `start`. -/
def bracedSpan (t : Bytes) (header start : Nat) : Except ResolveError Span :=
  match region t start with
  | .ok r => .ok ⟨header, r.first, r.last, false⟩
  | .error e => .error (.noRegion e)

/-- What follows the head of an arrow function, blanks skipped. -/
def arrowHead? (t : Bytes) : Option Bytes := do
  let (_, r) ← word? t
  let r ← byte? equalsSign (blanks r)
  let r ← parameters? (async (blanks r))
  let r ← keyword? "=>" (blanks r)
  pure (blanks r)

/-- A semicolon or a newline ends an expression body. -/
def endsStatement (b : UInt8) : Bool := b == 0x3b || b == newlineByte

/-- The body of the binding at `header`. A body without braces runs to the end of its statement or
line. -/
def lambdaSpan (t : Bytes) (header : Nat) : Except ResolveError Span :=
  match arrowHead? (t.drop header) with
  | none => bracedSpan t header header
  | some rest =>
    let start := t.length - rest.length
    if rest.head? == some openBrace then bracedSpan t header start
    else
      match (rest.takeWhile fun b => !endsStatement b).length with
      | 0 => .error .emptyArrow
      | n + 1 => .ok ⟨header, start, start + n, true⟩

/-- The body of the function of a name. -/
def resolve (t : Bytes) (name : Bytes) : Except ResolveError Span :=
  match firstPlace (startsDeclaration name) t with
  | some i => bracedSpan t i i
  | none =>
    match firstPlace (startsExpression name) t with
    | some i => bracedSpan t i i
    | none =>
      match firstPlace (startsLambda name) t with
      | some i => lambdaSpan t i
      | none => .error (.headerNotFound name)

end ScriptSplit.Script
