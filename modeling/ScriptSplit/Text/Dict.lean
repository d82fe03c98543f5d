/-!
# Dictionaries in key order

A dictionary is a list of pairs whose keys increase strictly. Reports print their tables in key
order, so the order belongs to the value.

* `Dict.put`: adds or replaces an entry and keeps the order.
* `Dict.get?`, `Dict.keys`: look-up and the sorted keys.
-/

namespace ScriptSplit

/-- Pairs in increasing order of their keys. -/
abbrev Dict (α : Type) := List (String × α)

namespace Dict

variable {α : Type}

/-- Sets the entry of `key`, replacing an older one. -/
def put (key : String) (value : α) : Dict α → Dict α
  | [] => [(key, value)]
  | (k, v) :: rest =>
    if key < k then (key, value) :: (k, v) :: rest
    else if key = k then (key, value) :: rest
    else (k, v) :: put key value rest

/-- Later pairs replace earlier ones of the same key. -/
def ofList (pairs : List (String × α)) : Dict α :=
  pairs.foldl (fun d p => put p.1 p.2 d) []

/-- The entry of a key. -/
def get? (d : Dict α) (key : String) : Option α := d.lookup key

/-- There is an entry of the key. -/
def has (d : Dict α) (key : String) : Bool := (d.get? key).isSome

/-- The keys, in order. -/
def keys (d : Dict α) : List String := d.map Prod.fst

/-- Without the entry of a key. -/
def erase (key : String) (d : Dict α) : Dict α := d.filter fun p => p.1 ≠ key

end Dict

/-- Inserts a string into a strictly increasing list, unless it is there. -/
def insertSorted (s : String) : List String → List String
  | [] => [s]
  | t :: rest =>
    if s < t then s :: t :: rest
    else if s = t then t :: rest
    else t :: insertSorted s rest

/-- The members of a list, each once, in increasing order. -/
def sortedSet (names : List String) : List String :=
  names.foldl (fun acc s => insertSorted s acc) []

/-- The members of a list in increasing order, repetitions kept. -/
def sortStrings (names : List String) : List String := names.mergeSort fun a b => decide (a ≤ b)

end ScriptSplit
