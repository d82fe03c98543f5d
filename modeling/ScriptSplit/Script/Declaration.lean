import ScriptSplit.Registry.Function
import ScriptSplit.Script.Pattern
import ScriptSplit.Text.Lines

/-!
# Declarations

Finds the function-like declarations of a script by four patterns, without a syntax tree. The first
pattern that reports a name owns it.

* `declarationForm`, `expressionForm`, `arrowForm`, `methodForm`: the patterns.
* `extract`: the declarations of a text, by pattern and then by place.
-/

namespace ScriptSplit.Script

/-- A function declaration: the word `function`, a name, parameters and an opening brace. -/
def declarationForm : Pattern Bytes := fun _ t => do
  let r ← blanks1 (← keyword? "function" t)
  let (name, r) ← word? r
  let r ← parameters? (blanks r)
  let r ← byte? openBrace (blanks r)
  pure (name, r)

/-- The common front of a binding: a binder, a name and an equals sign, with the blanks and the
optional `async` after it. -/
def binding? (t : Bytes) : Option (Bytes × Bytes) := do
  let r ← blanks1 (← binder? t)
  let (name, r) ← word? r
  let r ← byte? equalsSign (blanks r)
  pure (name, async (blanks r))

/-- A binding of a function expression. -/
def expressionForm : Pattern Bytes := fun _ t => do
  let (name, r) ← binding? t
  let r ← keyword? "function" r
  let r ← byte? openParen (blanks r)
  pure (name, r)

/-- A binding of an arrow function. -/
def arrowForm : Pattern Bytes := fun _ t => do
  let (name, r) ← binding? t
  let r ← parameters? r
  let r ← keyword? "=>" (blanks r)
  pure (name, r)

/-- The header of a method: a name, parameters and an opening brace. -/
def methodHeader? (t : Bytes) : Option (Bytes × Bytes) := do
  let (name, r) ← word? t
  let r ← parameters? (blanks r)
  let r ← byte? openBrace (blanks r)
  pure (name, r)

/-- The first method header in a class body. No closing brace lies before it. The number counts the
bytes before the header. -/
def firstMethod? : Bytes → Option (Nat × Bytes × Bytes)
  | [] => none
  | b :: r =>
    match methodHeader? (b :: r) with
    | some (name, rest) => some (0, name, rest)
    | none => if b == closeBrace then none else (firstMethod? r).map fun (n, m) => (n + 1, m)

/-- A class up to the header of its first method. The match gives the method's name and how many
bytes of the match lie before it. -/
def methodForm : Pattern (Bytes × Nat) := fun _ t => do
  let r ← blanks1 (← keyword? "class" t)
  let (_, r) ← word? r
  let r ← byte? openBrace (blanks r)
  let (n, name, rest) ← firstMethod? r
  pure ((name, t.length - r.length + n), rest)

/-- Control-flow words look like method headers and are never functions. -/
def reservedNames : List String := ["if", "for", "while", "switch", "catch", "function", "return"]

/-- A name with the place and the form of its declaration. -/
structure Declaration where
  name : String
  kind : Kind
  offset : Nat
  line : Nat
  deriving DecidableEq, Repr

/-- The candidates of all four patterns. A method stands at its name, every other function at the
start of its match. -/
def candidates (t : Bytes) : List (Kind × Nat × Bytes) :=
  (occurrences declarationForm t).map (fun (i, name) => (.declaration, i, name)) ++
  (occurrences expressionForm t).map (fun (i, name) => (.expression, i, name)) ++
  (occurrences arrowForm t).map (fun (i, name) => (.arrow, i, name)) ++
  (occurrences methodForm t).map (fun (i, name, n) => (.method, i + n, name))

/-- Keeps the first candidate of each name that is not reserved and not among `seen`. -/
def keepFirst (t : Bytes) : (seen : List String) → List (Kind × Nat × Bytes) → List Declaration
  | _, [] => []
  | seen, (kind, offset, word) :: rest =>
    let name := Bytes.ascii word
    if name ∈ seen ∨ name ∈ reservedNames then keepFirst t seen rest
    else ⟨name, kind, offset, t.lineAt offset⟩ :: keepFirst t (name :: seen) rest

/-- The declarations of a text in registry order: by pattern, then by place. -/
def extract (t : Bytes) : List Declaration := keepFirst t [] (candidates t)

end ScriptSplit.Script
