import ScriptSplit.Format.Toml.Scalar

/-!
# Keys of TOML

A key is read in two steps: its text up to the equals sign, in which the escapes of quoted parts are
resolved, and then the parts between its points.

* `Toml.keyText?`: the text of a key at the front of a line.
* `Toml.keyParts?`: the parts of a key.
-/

namespace ScriptSplit.Toml

/-- The characters of a part without quotes. -/
def isBareChar (c : Char) : Bool := c.isAlphanum || c = '_' || c = '-'

/-- The text of a key and what follows it. -/
def keyText? : (fuel : Nat) → List Char → Option (List Char × List Char)
  | 0, _ => none
  | _ + 1, [] => some ([], [])
  | fuel + 1, c :: r =>
    if c = '=' then some ([], c :: r)
    else if c = '\x22' then do
      let (part, r) ← basicChars? ['\x22'] true false r
      let (cs, rest) ← keyText? fuel r
      some ('\x22' :: part ++ '\x22' :: cs, rest)
    else if c = '\x27' then do
      let (part, r) ← literalChars? ['\x27'] r
      let (cs, rest) ← keyText? fuel r
      some ('\x27' :: part ++ '\x27' :: cs, rest)
    else if isBlank c then
      match r.dropWhile isBlank with
      | '.' :: r => do
        let (cs, rest) ← keyText? fuel (r.dropWhile isBlank)
        some (' ' :: '.' :: r.takeWhile isBlank ++ cs, rest)
      | r => some ([], r)
    else if c = '.' || isBareChar c then do
      let (cs, rest) ← keyText? fuel r
      some (c :: cs, rest)
    else none

/-- The parts of a key. Parts in quotes end at the next quote of their kind. -/
def keyPartsFrom? : (fuel : Nat) → List Char → Option (List String)
  | 0, _ => none
  | _ + 1, [] => some []
  | fuel + 1, c :: r =>
    if isBlank c then keyPartsFrom? fuel r
    else if isBareChar c then
      let part := String.ofList (c :: r.takeWhile isBareChar)
      let rest := r.dropWhile isBareChar
      match rest with
      | [] => some [part]
      | '.' :: _ => (keyPartsFrom? fuel rest).map (part :: ·)
      | d :: _ =>
        if isBlank d then
          match rest.dropWhile isBlank with
          | [] => some [part]
          | '.' :: r => (keyPartsFrom? fuel ('.' :: r)).map (part :: ·)
          | _ => none
        else none
    else if c = '\x22' || c = '\x27' then
      match r.dropWhile (· ≠ c) with
      | [] => none
      | _ :: rest => (keyPartsFrom? fuel rest).map (String.ofList (r.takeWhile (· ≠ c)) :: ·)
    else if c = '.' then
      if r.head?.any fun d => isBareChar d || d = '\x22' || d = '\x27' || d = ' ' then keyPartsFrom? fuel r
      else none
    else none

/-- The parts of a key, of which there is at least one. -/
def keyParts? (text : List Char) : Option (List String) :=
  match keyPartsFrom? (text.length + 1) text with
  | some (part :: parts) => some (part :: parts)
  | _ => none

end ScriptSplit.Toml
