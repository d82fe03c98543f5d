import ScriptSplit.Format.Toml.Key
import ScriptSplit.Format.Toml.Tree
import ScriptSplit.Text.Utf8

/-!
# Reading TOML

* `Toml.Statement`: a table heading or an assignment; `Toml.statements?`: those of a text.
* `Toml.Builder`: the document so far; `Toml.Builder.step?`: what a statement does to it.
* `Toml.read?`: the document that a text says.
-/

namespace ScriptSplit.Toml

/-- The text from the end of the line on. -/
def skipComment (cs : List Char) : List Char := cs.dropWhile (· ≠ '\n')

/-- Skips blanks, line ends and comments; `comment` says that a comment is being skipped. -/
def skipSpace : (comment : Bool) → List Char → List Char
  | _, [] => []
  | true, c :: r => skipSpace (c ≠ '\n') r
  | false, c :: r => if isBlankOrBreak c then skipSpace false r else if c = '#' then skipSpace true r else c :: r

/-- The text after a value on a line: only blanks and a comment may follow. -/
def lineEnd? (cs : List Char) : Option (List Char) :=
  match cs.dropWhile isBlank with
  | [] => some []
  | c :: r => if c = '\n' || c = '\r' then some r else if c = '#' then some (skipComment r) else none

/-- The text after the first line, on which only blanks and a comment may stand. -/
def nextLine? (cs : List Char) : Option (List Char) :=
  match cs.dropWhile isBlank with
  | '\n' :: r => some r
  | '\r' :: r => some r
  | '#' :: r => after? ['\n'] (skipComment r)
  | _ => none

/-- The text after an empty list that stands on a line below its equals sign. No other value may stand
there, as a bracket at the start of a line opens a heading. -/
def emptyListBelow? (cs : List Char) : Option (List Char) := do
  let r ← nextLine? cs
  after? ['[', ']'] (skipSpace false r)

/-- A key and its equals sign. -/
def keyAndEquals? (cs : List Char) : Option (List String × List Char) := do
  let (text, r) ← keyText? (cs.length + 1) cs
  let parts ← keyParts? text
  let r ← after? ['='] (skipSpace false r)
  some (parts, r)

/-- A list is a list of tables if it holds tables only, and at least one. -/
def listOf (items : List Tree) : Tree :=
  let isTable := fun (t : Tree) =>
    match t with
    | .table _ _ => true
    | _ => false
  if !items.isEmpty && items.all isTable then .tables items else .value (.list (items.map Tree.toDatum))

/-- A list without items. -/
def emptyList : Tree := .value (.list [])

/-- Closes a table. -/
def closeTable : Tree → Tree
  | .table _ entries => .table true entries
  | t => t

mutual

/-- A value after optional blanks. -/
def value? : (fuel : Nat) → List Char → Option (Tree × List Char)
  | 0, _ => none
  | fuel + 1, cs =>
    match cs.dropWhile isBlank with
    | '[' :: r => (listItems? fuel r).map fun (items, rest) => (listOf items, rest)
    | '\x7b' :: r =>
      match skipSpace false r with
      | '\x7d' :: rest => some (closeTable .empty, rest)
      | r => (tableFields? fuel .empty r).map fun (t, rest) => (closeTable t, rest)
    | r => (scalar? r).map fun (d, rest) => (.value d, rest)

/-- The items of a list and its closing bracket. A comma may follow the last item. -/
def listItems? : (fuel : Nat) → List Char → Option (List Tree × List Char)
  | 0, _ => none
  | fuel + 1, cs =>
    match skipSpace false cs with
    | ']' :: rest => some ([], rest)
    | r => do
      let (x, r) ← value? fuel r
      match skipSpace false r with
      | ',' :: r => do
        let (xs, rest) ← listItems? fuel r
        some (x :: xs, rest)
      | ']' :: rest => some ([x], rest)
      | _ => none

/-- The fields of a table in braces from a key on, and the closing brace. No comma may follow the last
field. -/
def tableFields? : (fuel : Nat) → (soFar : Tree) → List Char → Option (Tree × List Char)
  | 0, _, _ => none
  | fuel + 1, t, cs => do
    let (path, r) ← keyAndEquals? cs
    match emptyListBelow? r with
    | some r =>
      let rest ← after? ['\x7d'] (skipSpace false r)
      some (Tree.put emptyList path t, rest)
    | none =>
      let (x, r) ← value? fuel r
      let t := Tree.put x path t
      match r.dropWhile isBlank with
      | ',' :: r => tableFields? fuel t (skipSpace false r)
      | r => (after? ['\x7d'] (skipSpace false r)).map fun rest => (t, rest)

end

/-- A statement of a document. -/
inductive Statement where
  /-- The heading of a table; its text is kept as it was written. -/
  | table (text : List Char)
  /-- The heading of one more table of a list. -/
  | tableItem (text : List Char)
  | assign (path : List String) (value : Tree)

/-- The text of a heading and what follows its bracket. -/
def heading? (cs : List Char) : Option (List Char × List Char) :=
  let inside := fun (c : Char) => c ≠ ']' && c ≠ '['
  match cs.dropWhile inside with
  | ']' :: rest =>
    let text := cs.takeWhile inside
    if text.isEmpty then none else some (text, rest)
  | _ => none

/-- The statement at the front of a text that starts with neither blanks nor comments. -/
def statement? : List Char → Option (Statement × List Char)
  | '[' :: '[' :: r => do
    let (text, r) ← heading? r
    let rest ← after? [']'] r
    some (.tableItem text, rest)
  | '[' :: r => do
    let (text, rest) ← heading? r
    some (.table text, rest)
  | cs => do
    let (path, r) ← keyAndEquals? cs
    match emptyListBelow? r with
    | some rest => some (.assign path emptyList, rest)
    | none =>
      let (x, r) ← value? (r.length + 1) r
      let rest ← lineEnd? r
      some (.assign path x, rest)

/-- The statements of a text. Each uses up a character, so the length is fuel enough. -/
def statementsFrom? : (fuel : Nat) → List Char → Option (List Statement)
  | 0, _ => none
  | fuel + 1, cs =>
    match skipSpace false cs with
    | [] => some []
    | r => do
      let (s, r) ← statement? r
      let ss ← statementsFrom? fuel r
      some (s :: ss)

/-- The statements of a text. -/
def statements? (cs : List Char) : Option (List Statement) := statementsFrom? (cs.length + 1) cs

/-- A document under construction. -/
structure Builder where
  root : Tree
  /-- The path of the table that assignments go to. -/
  current : List String
  /-- The headings that may not come again. -/
  seen : List (List Char)

/-- A table is closed. -/
def isClosed : Option Tree → Bool
  | some (.table true _) => true
  | _ => false

/-- Opens a table. -/
def Builder.openTable? (b : Builder) (text : List Char) : Option Builder := do
  guard !(b.seen.contains text)
  let path ← keyParts? text
  let root ← b.root.grow? some path
  guard !(isClosed (root.get? path))
  some ⟨root, path, b.seen ++ [text]⟩

/-- Opens one more table of a list. Headings of tables below the list may come again. -/
def Builder.openItem? (b : Builder) (text : List Char) : Option Builder := do
  let path ← keyParts? text
  let root := (b.root.grow? some path.dropLast).getD b.root
  let items ← match root.get? path with
    | none => some []
    | some (.tables items) => some items
    | some _ => none
  let seen := b.seen.filter fun t => !(text ++ ['.']).isPrefixOf t
  some ⟨Tree.put (.tables (items ++ [.empty])) path root, path, seen ++ [text]⟩

/-- What a statement does to the document. -/
def Builder.step? (b : Builder) : Statement → Option Builder
  | .table text => b.openTable? text
  | .tableItem text => b.openItem? text
  | .assign path x => do
    let key ← path.getLast?
    let root ← Tree.assign? (b.current ++ path.dropLast) key x b.root
    some { b with root := root }

/-- Drops a byte order mark. -/
def dropMark : Bytes → Bytes
  | 0x00 :: 0x00 :: 0xfe :: 0xff :: r => r
  | 0xff :: 0xfe :: 0x00 :: 0x00 :: r => r
  | 0xef :: 0xbb :: 0xbf :: r => r
  | 0xfe :: 0xff :: r => r
  | 0xff :: 0xfe :: r => r
  | r => r

/-- The document that a text says. -/
def read? (t : Bytes) : Option Datum := do
  let ss ← statements? (Utf8.decodeLossy (dropMark t)).toList
  let b ← ss.foldlM Builder.step? ⟨.empty, [], []⟩
  some b.root.toDatum

end ScriptSplit.Toml
