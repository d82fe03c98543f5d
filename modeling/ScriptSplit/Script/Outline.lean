import ScriptSplit.Script.Declaration
import ScriptSplit.Script.Body

/-!
# Outlines

The outline of a script is its function registry with the bodies that could be found.

* `Outline.ofText`: extracts and resolves.
* `Outline.blankSpans`, `Outline.outside`: the text with bodies blanked out.
-/

namespace ScriptSplit.Script

/-- A function that stays without a body, and why. -/
structure Unresolved where
  name : String
  reason : String
  deriving DecidableEq, Repr

/-- A declaration with its body or the reason why there is none. -/
structure OutlineEntry where
  declaration : Declaration
  span : Except ResolveError Span

/-- The function registry of a text, in registry order. -/
structure Outline where
  entries : List OutlineEntry

namespace Outline

/-- Extracts the declarations of a text and resolves each body. -/
def ofText (t : Bytes) : Outline where
  entries := (extract t).map fun d => ⟨d, resolve t (Bytes.ofString d.name)⟩

/-- The body of an entry was found. -/
def isResolved (e : OutlineEntry) : Bool :=
  match e.span with
  | .ok _ => true
  | .error _ => false

/-- The spans that were found, with the names of their functions. -/
def spans (o : Outline) : List (String × Span) :=
  o.entries.filterMap fun e =>
    match e.span with
    | .ok s => some (e.declaration.name, s)
    | .error _ => none

/-- The functions without a body, in registry order. -/
def unresolved (o : Outline) : List Unresolved :=
  o.entries.filterMap fun e =>
    match e.span with
    | .ok _ => none
    | .error err => some ⟨e.declaration.name, Bytes.ascii err.message⟩

/-- The function of an entry, without edges and scores. -/
def function (e : OutlineEntry) : Function where
  name := e.declaration.name
  kind := e.declaration.kind
  sourceOffset := e.declaration.offset
  line := e.declaration.line
  dependencies := some []
  dependents := some []
  usesGlobalState := false
  usesPlatformAPI := false
  complexity := 0
  resolved := isResolved e

/-- The functions of an outline, without edges and scores. -/
def functions (o : Outline) : List Function := o.entries.map function

/-- The text with every byte of the span but the newlines turned into a space. -/
def blankSpan (t : Bytes) (s : Span) : Bytes :=
  t.mapIdx fun i b => if s.covers i && b != newlineByte then 0x20 else b

/-- The text with one span after the other blanked out. -/
def blankSpans (spans : List (String × Span)) (t : Bytes) : Bytes :=
  spans.foldl (fun t p => blankSpan t p.2) t

/-- The text with all bodies blanked out. -/
def outside (o : Outline) (t : Bytes) : Bytes := blankSpans o.spans t

end Outline

end ScriptSplit.Script
