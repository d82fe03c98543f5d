import ScriptSplit.Format.Yaml.Value

/-!
# Reading YAML

* `Yaml.Decode`: a step of decoding, which keeps count of the nodes and of those reached by reference.
* `Yaml.datum`: what a tree says.
* `Yaml.read?`: the mapping that the first document of a text says.
-/

namespace ScriptSplit.Yaml

/-- The number of nodes that were decoded, and how many of them a reference led to. -/
structure Tally where
  decoded : Nat
  referred : Nat

/-- A step of decoding, which may fail. -/
abbrev Decode (α : Type) := StateT Tally Option α

/-- The document says nothing that can be used. -/
def refuse {α : Type} : Decode α := fun _ => none

/-- The share of nodes that references may lead to, as a fraction. It falls from 99 to 10 percent as
documents grow. -/
def allowedShare (decoded : Nat) : Nat × Nat :=
  if decoded ≤ 400000 then (99, 100)
  else if 4000000 ≤ decoded then (10, 100)
  else (99 * 3600000 - 89 * (decoded - 400000), 100 * 3600000)

/-- Too many of the nodes were reached by reference. -/
def Tally.isExcessive (t : Tally) : Bool :=
  let (num, den) := allowedShare t.decoded
  100 < t.referred && 1000 < t.decoded && num * t.decoded < t.referred * den

/-- Counts one more node. -/
def count (referred : Bool) : Decode Unit := fun t =>
  let t : Tally := ⟨t.decoded + 1, if referred then t.referred + 1 else t.referred⟩
  if t.isExcessive then none else some ((), t)

/-- Where a value stands. -/
inductive Place where
  /-- In a mapping, or at the top. -/
  | field
  /-- In a sequence of a mapping. -/
  | item
  /-- In a sequence of a sequence. Keys there have no names unless they are texts. -/
  | deep
  deriving DecidableEq, Repr

/-- Where the items of a sequence stand. -/
def Place.ofItems : Place → Place
  | field => item
  | _ => deep

/-- Where the values of a mapping stand. -/
def Place.ofValues : Place → Place
  | deep => deep
  | _ => field

/-- The entries of a mapping that were decoded so far. -/
abbrev Fields := List (Value × Datum)

/-- Sets the value of a key. -/
def Fields.put (k : Value) (d : Datum) : Fields → Fields
  | [] => [(k, d)]
  | (k', d') :: rest => if k' = k then (k, d) :: rest else (k', d') :: Fields.put k d rest

/-- The table of entries; of several keys of one name the last counts. -/
def Fields.table (fields : Fields) : Datum :=
  .table (Dict.ofList (fields.map fun f => (f.1.keyText, f.2)))

/-- The value of a scalar that is a key. Among texts it counts as written. -/
def keyValue? (amongTexts : Bool) (tag text : String) (plain : Bool) : Decode (Option Value) :=
  match scalarValue? tag text plain with
  | none => refuse
  | some v => pure (if amongTexts then v.asText? text else some v)

/-- The value of a key. Sequences and mappings are no keys. -/
def key? (amongTexts referred : Bool) : Tree → Decode (Option Value)
  | .scalar tag text plain => do
    count referred
    keyValue? amongTexts tag text plain
  | .reference _ t => do
    count referred
    key? amongTexts true t
  | _ => refuse

/-- The values of keys that are there. -/
def keys (referred : Bool) : List (Tree × Tree) → Decode (List Value)
  | [] => pure []
  | (k, _) :: rest => do
    let v ← key? false referred k
    let vs ← keys referred rest
    return v.toList ++ vs

mutual

/-- What a tree says. -/
def datum (place : Place) (isTop referred : Bool) : Tree → Decode Datum
  | .scalar tag text plain => do
    count referred
    match (scalarValue? tag text plain).bind Value.toDatum? with
    | some d => return d
    | none => refuse
  | .sequence items => do
    count referred
    return .list (← items? place.ofItems referred items)
  | .mapping entries => do
    count referred
    if hasDuplicateKey entries then refuse
    let amongTexts := isTop || entries.all fun e => e.1.isTextKey
    if place = .deep && !amongTexts then refuse
    let (fields, _) ← ownEntries place.ofValues amongTexts referred [] none entries
    let (fields, _) ← mergedEntries place.ofValues amongTexts referred fields none entries entries
    return fields.table
  | .reference _ t => do
    count referred
    datum place isTop true t
  | .loop _ => refuse

/-- What the items of a sequence say. -/
def items? (place : Place) (referred : Bool) : List Tree → Decode (List Datum)
  | [] => pure []
  | t :: rest => do
    let d ← datum place false referred t
    let ds ← items? place referred rest
    return d :: ds

/-- Adds the entries of a mapping to those before them. Where a mapping is taken over, `taken` holds the
keys that are set already. -/
def ownEntries (place : Place) (amongTexts referred : Bool) (fields : Fields) (taken : Option (List Value)) :
    List (Tree × Tree) → Decode (Fields × Option (List Value))
  | [] => pure (fields, taken)
  | (k, v) :: rest => do
    if k.isMerge then ownEntries place amongTexts referred fields taken rest
    else
      match ← key? amongTexts referred k with
      | none => ownEntries place amongTexts referred fields taken rest
      | some key =>
        if taken.any fun ks => ks.contains key then ownEntries place amongTexts referred fields taken rest
        else
          let d ← datum place false referred v
          ownEntries place amongTexts referred (fields.put key d) (taken.map (key :: ·)) rest

/-- Adds the entries that a mapping takes over from others. -/
def mergedEntries (place : Place) (amongTexts referred : Bool) (fields : Fields)
    (taken : Option (List Value)) (all : List (Tree × Tree)) :
    List (Tree × Tree) → Decode (Fields × Option (List Value))
  | [] => pure (fields, taken)
  | (k, v) :: rest => do
    if k.isMerge then
      let ks ← match taken with
        | some ks => pure ks
        | none => keys referred all
      let (fields, ks) ← mergedFrom place amongTexts referred fields ks true v
      return (fields, taken.map fun _ => ks)
    else mergedEntries place amongTexts referred fields taken all rest

/-- Adds the entries of a mapping, or of the mappings in a sequence. -/
def mergedFrom (place : Place) (amongTexts referred : Bool) (fields : Fields) (taken : List Value)
    (mayBeSequence : Bool) : Tree → Decode (Fields × List Value)
  | .mapping entries => do
    count referred
    if hasDuplicateKey entries then refuse
    let (fields, taken) ← ownEntries place amongTexts referred fields (some taken) entries
    let (fields, taken) ← mergedEntries place amongTexts referred fields taken entries entries
    return (fields, taken.getD [])
  | .reference _ t => do
    count referred
    mergedFrom place amongTexts true fields taken false t
  | .sequence items => if mayBeSequence then mergedItems place amongTexts referred fields taken items else refuse
  | _ => refuse

/-- Adds the entries of each mapping of a sequence. -/
def mergedItems (place : Place) (amongTexts referred : Bool) (fields : Fields) (taken : List Value) :
    List Tree → Decode (Fields × List Value)
  | [] => pure (fields, taken)
  | t :: rest => do
    let (fields, taken) ← mergedFrom place amongTexts referred fields taken false t
    mergedItems place amongTexts referred fields taken rest

end

/-- The mapping that the first document of a text says. A text without documents and an empty document
say an empty one. -/
def read? (t : Bytes) : Option Datum := do
  match ← readTree? t with
  | none => some (.table [])
  | some tree =>
    match ← (datum .field true false tree).run ⟨1, 0⟩ with
    | (.table fields, _) => some (.table fields)
    | (.null, _) => some (.table [])
    | _ => none

end ScriptSplit.Yaml
