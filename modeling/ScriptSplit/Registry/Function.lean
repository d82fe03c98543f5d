import ScriptSplit.Text.Dict

/-!
# Functions

The record that a report keeps for each function of a script.

* `Kind`: the declaration form that introduced the function.
* `Function`: name, place, call edges, flags and complexity.
* `Graph`: the functions that have an edge, by name.
-/

namespace ScriptSplit

/-- The declaration form that introduced a function. A report that was read back may hold a label
of its own. -/
inductive Kind where
  | declaration
  | expression
  | arrow
  | method
  | other (label : String)
  deriving DecidableEq, Repr

namespace Kind

/-- The label of a kind in a report. -/
def label : Kind → String
  | declaration => "declaration"
  | expression => "expression"
  | arrow => "arrow"
  | method => "method"
  | other s => s

/-- The kind that has a label. -/
def ofLabel (s : String) : Kind :=
  if s = "declaration" then declaration
  else if s = "expression" then expression
  else if s = "arrow" then arrow
  else if s = "method" then method
  else other s

/-- Reading a label gives a kind that is written with it. -/
theorem label_ofLabel (s : String) : (ofLabel s).label = s := by
  unfold ofLabel
  split
  · simp [label, *]
  split
  · simp [label, *]
  split
  · simp [label, *]
  split
  · simp [label, *]
  · rfl

end Kind

/-- A list of a report. `none` is a list that was never filled in; it is written `null`. -/
abbrev Listing (α : Type) := Option (List α)

/-- The entries of a listing. -/
def Listing.items {α : Type} (l : Listing α) : List α := l.getD []

/-- A tracked function, known by its name. -/
structure Function where
  name : String
  kind : Kind
  /-- Offset of the declaration in bytes. -/
  sourceOffset : Int
  /-- One-based line of the declaration. -/
  line : Int
  /-- Names of the functions that it calls. -/
  dependencies : Listing String
  /-- Names of the functions that call it. -/
  dependents : Listing String
  usesGlobalState : Bool
  usesPlatformAPI : Bool
  complexity : Int
  /-- Its body was found. -/
  resolved : Bool
  deriving DecidableEq, Repr

/-- A function with nothing but a name. -/
def Function.bare (name : String) : Function where
  name := name
  kind := .other ""
  sourceOffset := 0
  line := 0
  dependencies := none
  dependents := none
  usesGlobalState := false
  usesPlatformAPI := false
  complexity := 0
  resolved := false

/-- The function calls another one or is called by one. -/
def Function.hasEdges (f : Function) : Bool :=
  !f.dependencies.items.isEmpty || !f.dependents.items.isEmpty

/-- Both directions of a function's edges. -/
structure GraphEntry where
  dependencies : Listing String
  dependents : Listing String
  complexity : Int
  deriving DecidableEq, Repr

/-- The functions that have an edge, by name. -/
abbrev Graph := Dict GraphEntry

namespace Graph

/-- The graph of a list of functions. Of two functions of one name the later one counts. -/
def ofFunctions (functions : List Function) : Graph :=
  Dict.ofList ((functions.filter Function.hasEdges).map fun f =>
    (f.name, ⟨f.dependencies, f.dependents, f.complexity⟩))

/-- The number of edges from a caller to a callee. -/
def edgeCount (g : Graph) : Nat := g.foldr (fun p n => p.2.dependencies.items.length + n) 0

end Graph

end ScriptSplit
