import ScriptSplit.Format.Yaml.Reader

/-!
# Front matter of prompts

A prompt file starts with facts about the prompt, between two lines of three hyphens, and goes on with
its text.

* `PromptArgument`, `PromptFacts`: the facts.
* `Yaml.Tree.fields?`: the fields of a mapping, with those that it takes over from others.
* `splitFrontMatter`: the facts and the text of a prompt file.
-/

namespace ScriptSplit

/-- An argument of a prompt. -/
structure PromptArgument where
  name : String
  description : String
  required : Bool
  deriving DecidableEq, Repr

/-- The facts about a prompt. -/
structure PromptFacts where
  description : String
  arguments : List PromptArgument
  deriving DecidableEq, Repr

/-- No facts at all. -/
def PromptFacts.empty : PromptFacts := ⟨"", []⟩

namespace Yaml

/-- The name of a field as written; an empty one names none. -/
def Tree.fieldName? : Tree → Option (Option String)
  | scalar tag text plain => (scalarValue? tag text plain).map fun v => (v.asText? text).map Value.keyText
  | reference _ t => t.fieldName?
  | _ => none

/-- Adds fields whose names are not there. -/
def addMissingFields (fields more : List (String × Tree)) : List (String × Tree) :=
  more.foldl (fun fs p => if (fs.lookup p.1).isSome then fs else fs ++ [p]) fields

mutual

/-- The fields of a mapping, with those that it takes over from others. -/
def Tree.fields? : Tree → Option (List (String × Tree))
  | .mapping entries =>
    if hasDuplicateKey entries then none
    else do
      let (own, taken) ← entryFields? entries
      some (taken.foldl addMissingFields own)
  | .reference _ t => Tree.fields? t
  | _ => none

/-- The fields of entries: their own, and the lists that they take over. -/
def entryFields? : List (Tree × Tree) → Option (List (String × Tree) × List (List (String × Tree)))
  | [] => some ([], [])
  | (k, v) :: rest => do
    let (own, taken) ← entryFields? rest
    if k.isMerge then
      match v with
      | .sequence items => do
        let more ← itemFields? items
        some (own, more ++ taken)
      | v => do
        let more ← Tree.fields? v
        some (own, more :: taken)
    else do
      match ← k.fieldName? with
      | some key => some ((key, v) :: own, taken)
      | none => some (own, taken)

/-- The fields of each item. -/
def itemFields? : List Tree → Option (List (List (String × Tree)))
  | [] => some []
  | t :: rest => do
    let fs ← Tree.fields? t
    let more ← itemFields? rest
    some (fs :: more)

end

/-- The text of a scalar as written; an empty one is the empty text. -/
def Tree.text? : Tree → Option String
  | scalar tag text plain => do
    match ← scalarValue? tag text plain with
    | .null => some ""
    | .text s => some s
    | _ => some text
  | reference _ t => t.text?
  | _ => none

/-- The truth value of a word; besides `true` and `false` the usual words for yes and no count. -/
def Tree.flag? : Tree → Option Bool
  | scalar tag text plain => do
    match ← scalarValue? tag text plain with
    | .null => some false
    | .bool b => some b
    | .text s =>
      if s ∈ ["y", "Y", "yes", "Yes", "YES", "on", "On", "ON"] then some true
      else if s ∈ ["n", "N", "no", "No", "NO", "off", "Off", "OFF"] then some false
      else none
    | _ => none
  | reference _ t => t.flag?
  | _ => none

/-- The scalar that says nothing. -/
def Tree.isNull : Tree → Bool
  | scalar tag text plain =>
    match scalarValue? tag text plain with
    | some .null => true
    | _ => false
  | reference _ t => t.isNull
  | _ => false

/-- The value of a field that may be missing. -/
def fieldValue? {α : Type} (decode : Tree → Option α) (missing : α) (fields : List (String × Tree))
    (name : String) : Option α :=
  match fields.lookup name with
  | some t => decode t
  | none => some missing

/-- A field comes more than once. -/
def isRepeated (fields : List (String × Tree)) (name : String) : Bool :=
  1 < fields.countP fun p => p.1 == name

end Yaml

open Yaml in
/-- The argument that a tree says. -/
def PromptArgument.ofTree? (t : Tree) : Option PromptArgument := do
  let fields ← t.fields?
  guard (!(["name", "description", "required"].any (isRepeated fields)))
  some
    { name := ← fieldValue? Tree.text? "" fields "name"
      description := ← fieldValue? Tree.text? "" fields "description"
      required := ← fieldValue? Tree.flag? false fields "required" }

open Yaml in
/-- The arguments that a tree says; empty items are left out. -/
def promptArguments? : Tree → Option (List PromptArgument)
  | .sequence items => (items.filter fun t => !t.isNull).mapM PromptArgument.ofTree?
  | .reference _ t => promptArguments? t
  | t => if t.isNull then some [] else none

open Yaml in
/-- The facts that a tree says. -/
def PromptFacts.ofTree? (t : Tree) : Option PromptFacts :=
  if t.isNull then some .empty
  else do
    let fields ← t.fields?
    guard (!(["description", "arguments"].any (isRepeated fields)))
    some
      { description := ← fieldValue? Tree.text? "" fields "description"
        arguments := ← fieldValue? promptArguments? [] fields "arguments" }

/-- The facts that a text says. -/
def PromptFacts.ofText? (t : Bytes) : Option PromptFacts := do
  match ← Yaml.readTree? t with
  | some tree => PromptFacts.ofTree? tree
  | none => some .empty

/-- Splits a text at the first place where a mark stands. -/
def splitAtMark? (mark : Bytes) : Bytes → Option (Bytes × Bytes)
  | [] => none
  | b :: r =>
    match Bytes.after? mark (b :: r) with
    | some rest => some ([], rest)
    | none => (splitAtMark? mark r).map fun p => (b :: p.1, p.2)

/-- The facts and the text of a prompt file. A file whose facts are missing or malformed is all text. -/
def splitFrontMatter (content : Bytes) : PromptFacts × Bytes :=
  let split := do
    let rest ← Bytes.after? (Bytes.ofString "---\n") content
    let (front, body) ← splitAtMark? (Bytes.ofString "\n---\n") rest
    let facts ← PromptFacts.ofText? front
    some (facts, (Bytes.after? (Bytes.ofString "\n") body).getD body)
  split.getD (.empty, content)

end ScriptSplit
