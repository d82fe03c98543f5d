import ScriptSplit.Format.Datum

/-!
# Trees of TOML

A document is a tree of tables. A path that meets a list of tables goes on in the last of them.

* `Toml.Tree`: a value, a table or a list of tables.
* `Toml.Tree.get?`, `Toml.Tree.grow?`, `Toml.Tree.put`, `Toml.Tree.assign?`: operations at paths.
-/

namespace ScriptSplit.Toml

/-- A part of a document. Tables that were written in braces are closed: nothing is added to them. -/
inductive Tree where
  | value (d : Datum)
  | table (closed : Bool) (entries : List (String × Tree))
  | tables (items : List Tree)

namespace Tree

/-- An open table without entries. -/
def empty : Tree := table false []

mutual

/-- What a part says. -/
def toDatum : Tree → Datum
  | value d => d
  | table _ entries => .table (entriesToData entries)
  | tables items => .list (itemsToData items)

/-- What the entries of a table say. -/
def entriesToData : List (String × Tree) → List (String × Datum)
  | [] => []
  | (key, t) :: rest => (key, toDatum t) :: entriesToData rest

/-- What the tables of a list say. -/
def itemsToData : List Tree → List Datum
  | [] => []
  | t :: rest => toDatum t :: itemsToData rest

end

/-- Sets an entry of a list of entries. -/
def setEntry (key : String) (t : Tree) (entries : List (String × Tree)) : List (String × Tree) :=
  if (entries.lookup key).isSome then entries.map fun p => if p.1 = key then (key, t) else p
  else entries ++ [(key, t)]

/-- The table that a path goes on in. -/
def inner? : Tree → Option Tree
  | value _ => none
  | table closed entries => some (table closed entries)
  | tables items => items.getLast?

/-- The part at a path. -/
def get? : (path : List String) → Tree → Option Tree
  | [], t => some t
  | key :: rest, t =>
    match t.inner? with
    | some (table _ entries) => (entries.lookup key).bind (get? rest)
    | _ => none

/-- Changes the table that a part goes on in. -/
def onInner? (f : Tree → Option Tree) : Tree → Option Tree
  | value _ => none
  | table closed entries => f (table closed entries)
  | tables items => do
    let last ← items.getLast?
    let t ← f last
    some (tables (items.dropLast ++ [t]))

/-- Makes the tables along a path, as far as they are missing, and changes the last of them. A new
table is closed like the one around it. A value in the way is an error. -/
def grow? (f : Tree → Option Tree) : (path : List String) → Tree → Option Tree
  | [] => onInner? f
  | key :: rest => onInner? fun t =>
    match t with
    | table closed entries => do
      let next := (entries.lookup key).getD (table closed [])
      let t ← grow? f rest next
      some (table closed (setEntry key t entries))
    | _ => none

/-- Sets the part at a path. Missing tables are made, and a value in the way is passed over. -/
def put (new : Tree) : (path : List String) → Tree → Tree
  | [], t => t
  | [key], table closed entries => table closed (setEntry key new entries)
  | key :: rest, table closed entries =>
    match (entries.lookup key).getD empty with
    | table c es => table closed (setEntry key (put new rest (table c es)) entries)
    | tables items =>
      match items.getLast? with
      | some last => table closed (setEntry key (tables (items.dropLast ++ [put new rest last])) entries)
      | none => table closed (setEntry key (tables [put new rest empty]) entries)
    | value _ => put new rest (table closed entries)
  | _, t => t

/-- Gives a new key of a table its value. A closed table and a key that is there are errors. -/
def addField? (key : String) (new : Tree) : Tree → Option Tree
  | table false entries => if (entries.lookup key).isSome then none else some (table false (entries ++ [(key, new)]))
  | _ => none

/-- Gives the key at the end of a path its value. -/
def assign? (path : List String) (key : String) (new : Tree) (t : Tree) : Option Tree :=
  grow? (addField? key new) path t

end Tree

end ScriptSplit.Toml
