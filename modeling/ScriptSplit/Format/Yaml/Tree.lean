import ScriptSplit.Format.Yaml.Token

/-!
# Trees of YAML

* `Yaml.Tree`: a node of a document.
* `Yaml.node?`: the node that comes next.
* `Yaml.readTree?`: the tree of the first document of a text.
-/

namespace ScriptSplit.Yaml

/-- A node of a document. -/
inductive Tree where
  /-- A scalar; the tag is empty if none was written. -/
  | scalar (tag text : String) (plain : Bool)
  | sequence (items : List Tree)
  | mapping (entries : List (Tree × Tree))
  /-- A node that was given a name earlier. -/
  | reference (name : String) (target : Tree)
  /-- A node that refers to one that holds it. -/
  | loop (name : String)
  deriving Repr

/-- The node where none was written. -/
def Tree.empty : Tree := .scalar "" "" true

/-- What is known while a document is read. -/
structure Reading where
  scan : Scan
  /-- The beginnings that the handles of tags stand for. -/
  handles : List (String × String)
  /-- The nodes with names; a node that is still being read has none. -/
  anchors : List (String × Option Tree)

/-- A step of reading a document, which may fail. -/
abbrev Parse (α : Type) := StateT Reading Option α

/-- The token that comes next. -/
def peek : Parse Token := fun r => r.scan.peek?.map fun (t, s) => (t, { r with scan := s })

/-- Past the token that comes next. -/
def next : Parse Unit := modify fun r => { r with scan := r.scan.next }

/-- Past the token that comes next, to the one after it. -/
def nextPeek : Parse Token := do
  next
  peek

/-- The document is malformed. -/
def malformed {α : Type} : Parse α := fun _ => none

/-! ## Names -/

/-- The short form of a tag. -/
def shortTag (tag : String) : String :=
  let long := "tag:yaml.org,2002:"
  if tag = "!" then ""
  else if tag.startsWith long then "!!" ++ String.ofList (tag.toList.drop long.length)
  else tag

/-- The tag of a handle and a suffix. -/
def tagOf (handle suffix : String) : Parse String := do
  if handle = "" then return shortTag suffix
  match (← get).handles.lookup handle with
  | some start => return shortTag (start ++ suffix)
  | none => malformed

/-- Gives a node its name. -/
def name (anchor : Option String) (t : Option Tree) : Parse Unit :=
  match anchor with
  | some a => modify fun r => { r with anchors := (a, t) :: r.anchors }
  | none => pure ()

/-- The node of a name. -/
def named (a : String) : Parse Tree := do
  match (← get).anchors.lookup a with
  | some (some t) => return .reference a t
  | some none => return .loop a
  | none => malformed

/-- The anchor and the tag before a node, in either order. -/
def properties : Parse (Option String × Option String) := do
  match ← peek with
  | .anchor a =>
    match ← nextPeek with
    | .tag h s =>
      let _ ← nextPeek
      return (some a, some (← tagOf h s))
    | _ => return (some a, none)
  | .tag h s =>
    match ← nextPeek with
    | .anchor a =>
      let _ ← nextPeek
      return (some a, some (← tagOf h s))
    | _ => return (none, some (← tagOf h s))
  | _ => return (none, none)

/-- The token after the comma that separates two items; before the first one there is none. -/
def afterComma (first : Bool) (last : Token) : Parse Token := do
  let t ← peek
  if t = last || first then return t
  else if t = .flowEntry then nextPeek
  else malformed

/-! ## Nodes -/

/-- An anchor or a tag without content stands for an empty node. -/
def bareNode (hasProperties : Bool) (tag : String) : Parse Tree :=
  if hasProperties then pure (.scalar tag "" true) else malformed

mutual

/-- The node that comes next. Blocks may start where `block` is set, and a sequence that is not indented
where `flush` is set. -/
def node? : (fuel : Nat) → (block flush : Bool) → Parse Tree
  | 0, _, _ => malformed
  | fuel + 1, block, flush => do
    match ← peek with
    | .reference a =>
      next
      named a
    | _ =>
      let (anchor, tag) ← properties
      name anchor none
      let t ← body? fuel block flush (anchor.isSome || tag.isSome) (tag.getD "")
      name anchor (some t)
      return t

/-- The node after its anchor and its tag, which may stand alone. -/
def body? : (fuel : Nat) → (block flush hasProperties : Bool) → (tag : String) → Parse Tree
  | 0, _, _, _, _ => malformed
  | fuel + 1, block, flush, hasProperties, tag => do
    match ← peek with
    | .blockEntry => if flush then return .sequence (← flushItems? fuel) else bareNode hasProperties tag
    | .scalar text plain =>
      next
      return .scalar tag text plain
    | .flowSequence =>
      next
      return .sequence (← flowItems? fuel true)
    | .flowMapping =>
      next
      return .mapping (← flowPairs? fuel true)
    | .blockSequence =>
      if block then
        next
        return .sequence (← blockItems? fuel)
      else bareNode hasProperties tag
    | .blockMapping =>
      if block then
        next
        return .mapping (← blockPairs? fuel)
      else bareNode hasProperties tag
    | _ => bareNode hasProperties tag

/-- The items of an indented sequence and its end. -/
def blockItems? : (fuel : Nat) → Parse (List Tree)
  | 0 => malformed
  | fuel + 1 => do
    match ← peek with
    | .blockEntry =>
      let t ← nextPeek
      let x ← if t = .blockEntry || t = .blockEnd then pure .empty else node? fuel true false
      return x :: (← blockItems? fuel)
    | .blockEnd =>
      next
      return []
    | _ => malformed

/-- The items of a sequence at the indentation of the mapping around it. -/
def flushItems? : (fuel : Nat) → Parse (List Tree)
  | 0 => malformed
  | fuel + 1 => do
    match ← peek with
    | .blockEntry =>
      let t ← nextPeek
      let x ← if t ∈ [.blockEntry, .key, .value, .blockEnd] then pure .empty else node? fuel true false
      return x :: (← flushItems? fuel)
    | _ => return []

/-- The entries of a block mapping and its end. -/
def blockPairs? : (fuel : Nat) → Parse (List (Tree × Tree))
  | 0 => malformed
  | fuel + 1 => do
    match ← peek with
    | .key =>
      let t ← nextPeek
      let k ← if t ∈ [.key, .value, .blockEnd] then pure .empty else node? fuel true true
      let v ← match ← peek with
        | .value =>
          let t ← nextPeek
          if t ∈ [.key, .value, .blockEnd] then pure .empty else node? fuel true true
        | _ => pure .empty
      return (k, v) :: (← blockPairs? fuel)
    | .blockEnd =>
      next
      return []
    | _ => malformed

/-- The items between brackets and the closing one; `first` says that none came before. -/
def flowItems? : (fuel : Nat) → (first : Bool) → Parse (List Tree)
  | 0, _ => malformed
  | fuel + 1, first => do
    match ← afterComma first .flowSequenceEnd with
    | .flowSequenceEnd =>
      next
      return []
    | .key =>
      let t ← nextPeek
      let k ← if t ∈ [.value, .flowEntry, .flowSequenceEnd] then
          next
          pure .empty
        else node? fuel false false
      let v ← flowValue? fuel .flowSequenceEnd
      return .mapping [(k, v)] :: (← flowItems? fuel false)
    | _ =>
      let x ← node? fuel false false
      return x :: (← flowItems? fuel false)

/-- The entries between braces and the closing one; `first` says that none came before. -/
def flowPairs? : (fuel : Nat) → (first : Bool) → Parse (List (Tree × Tree))
  | 0, _ => malformed
  | fuel + 1, first => do
    match ← afterComma first .flowMappingEnd with
    | .flowMappingEnd =>
      next
      return []
    | .key =>
      let t ← nextPeek
      let k ← if t ∈ [.value, .flowEntry, .flowMappingEnd] then pure .empty else node? fuel false false
      let v ← flowValue? fuel .flowMappingEnd
      return (k, v) :: (← flowPairs? fuel false)
    | _ =>
      let k ← node? fuel false false
      let _ ← peek
      return (k, .empty) :: (← flowPairs? fuel false)

/-- The value after a key between brackets or braces; there may be none. -/
def flowValue? : (fuel : Nat) → (last : Token) → Parse Tree
  | 0, _ => malformed
  | fuel + 1, last => do
    match ← peek with
    | .value =>
      let t ← nextPeek
      if t = .flowEntry || t = last then pure .empty else node? fuel false false
    | _ => pure .empty

end

/-! ## Documents -/

/-- The handles that need no directive. -/
def defaultHandles : List (String × String) := [("!", "!"), ("!!", "tag:yaml.org,2002:")]

/-- The directives before a document. Neither the version nor a handle is given twice. -/
def directives? : (fuel : Nat) → (versioned : Bool) → Parse Unit
  | 0, _ => malformed
  | fuel + 1, versioned => do
    match ← peek with
    | .version major minor =>
      if versioned || major ≠ 1 || minor ≠ 1 then malformed
      next
      directives? fuel true
    | .tagHandle handle start =>
      if ((← get).handles.lookup handle).isSome then malformed
      modify fun r => { r with handles := (handle, start) :: r.handles }
      next
      directives? fuel versioned
    | _ => modify fun r => { r with handles := r.handles ++ defaultHandles }

/-- The token stands between documents. -/
def endsContent : Token → Bool
  | .version _ _ => true
  | .tagHandle _ _ => true
  | .documentStart => true
  | .documentEnd => true
  | .streamEnd => true
  | _ => false

/-- The first document; a text without documents has none. What follows must show that the document is
over. -/
def document? (fuel : Nat) : Parse (Option Tree) := do
  match ← peek with
  | .streamEnd => return none
  | t =>
    let isMarked := endsContent t && t ≠ .documentEnd
    directives? fuel false
    let tree ← if isMarked then
        if (← peek) ≠ .documentStart then malformed
        if endsContent (← nextPeek) then pure .empty else node? fuel true false
      else node? fuel true false
    let _ ← peek
    return some tree

/-- The tree of the first document of a text. Every step uses up a token, and a character stands for
four of them at most. -/
def readTree? (t : Bytes) : Option (Option Tree) :=
  let source := Source.ofBytes t
  ((document? (4 * source.chars.length + 16)).run ⟨.start source, [], []⟩).map Prod.fst

end ScriptSplit.Yaml
