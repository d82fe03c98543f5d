import ScriptSplit.Text.Utf8

/-!
# Matchers

What a glob does with a text. Matchers work on bytes; a byte outside a well-formed sequence counts as
a replacement character.

* `Glob.Matcher`: a test of a text; `Glob.Matcher.length?`: the number of characters it takes, if fixed.
* `Glob.Matcher.accepts`: the whole text passes.
* `Glob.Matcher.find`: the first place in a text that passes, and how many bytes it may take there.
-/

namespace ScriptSplit

/-- The offset of the first occurrence of `w`. -/
def Bytes.indexOf? (w : Bytes) : Bytes → Option Nat
  | [] => if w.isEmpty then some 0 else none
  | b :: r => if Bytes.startsWith (b :: r) w then some 0 else (indexOf? w r).map (· + 1)

/-- The offset of the last occurrence of `w`. -/
def Bytes.lastIndexOf? (w : Bytes) : Bytes → Option Nat
  | [] => if w.isEmpty then some 0 else none
  | b :: r =>
    match lastIndexOf? w r with
    | some i => some (i + 1)
    | none => if Bytes.startsWith (b :: r) w then some 0 else none

/-- The text ends with `w`. -/
def Bytes.endsWith (t w : Bytes) : Bool := Bytes.startsWith t.reverse w.reverse

namespace Glob

/-- The characters of a text with the offsets of their first bytes, counted from `start`. -/
def offsetsFrom (start : Nat) : Bytes → List (Nat × Char)
  | [] => []
  | a :: t =>
    (start, (Utf8.step a t).1.getD (Char.ofNat 0xfffd)) ::
      offsetsFrom (start + (t.length + 1 - (Utf8.step a t).2.length)) (Utf8.step a t).2
termination_by t => t.length
decreasing_by
  have := Utf8.length_step_le a t
  simp only [List.length_cons]
  omega

/-- The characters of a text with the offsets of their first bytes. -/
def offsets (t : Bytes) : List (Nat × Char) := offsetsFrom 0 t

/-- The ends of the characters, counted from their beginnings and the size of what was read. -/
def ends (t : Bytes) : List Nat := (offsets t).map fun (i, c) => i + c.utf8Size

/-- The only character of a text. An empty text reads as a replacement character. -/
def onlyChar? (t : Bytes) : Option Char :=
  match t with
  | [] => some (Char.ofNat 0xfffd)
  | a :: r =>
    match Utf8.step a r with
    | (c, []) => some (c.getD (Char.ofNat 0xfffd))
    | _ => none

/-- The byte that separates segments. -/
def slash : UInt8 := 0x2f

/-- The text before the first slash. -/
def firstSegment (t : Bytes) : Bytes := t.takeWhile (· ≠ slash)

/-- A matcher asked for text past the end. -/
inductive GlobFault where
  | pastEnd
  deriving DecidableEq, Repr

/-- The text of a fault. -/
def GlobFault.message : GlobFault → String
  | pastEnd => "slice bounds out of range"

/-- A test of a text. -/
inductive Matcher where
  /-- The side of a node where nothing is written. -/
  | edge
  | nothing
  | text (s : String)
  /-- Any text without a slash. -/
  | star
  /-- Any text. -/
  | super
  /-- Any character but a slash. -/
  | single
  | list (negated : Bool) (chars : List Char)
  | range (negated : Bool) (lo hi : Char)
  /-- No fewer characters than this. -/
  | atLeast (n : Nat)
  /-- No more characters than this. -/
  | atMost (n : Nat)
  /-- The text does not occur. -/
  | avoids (s : String)
  /-- The text occurs. -/
  | contains (s : String)
  | startsWith (s : String)
  | endsWith (s : String)
  /-- Starts with one text and ends with another; the two may overlap. -/
  | encloses (front back : String)
  /-- A text, then anything without a slash. -/
  | thenStar (s : String)
  /-- Anything without a slash, then a text. -/
  | starThen (s : String)
  | anyOf (ms : List Matcher)
  | every (ms : List Matcher)
  /-- Matchers of fixed lengths that follow each other. -/
  | row (ms : List Matcher)
  /-- A place in the text with what stands to the left and to the right of it. -/
  | node (value left right : Matcher)

namespace Matcher

/-! ## Lengths -/

mutual

/-- The number of characters that a matcher takes, where it is fixed. -/
def length? : Matcher → Option Nat
  | edge => some 0
  | nothing => some 0
  | text s => some s.length
  | single => some 1
  | list _ _ => some 1
  | range _ _ _ => some 1
  | anyOf ms => commonLength? none ms
  | row ms => totalLength? ms
  | node v l r =>
    match length? v, length? l, length? r with
    | some v, some l, some r => some (l + v + r)
    | _, _, _ => none
  | _ => none

/-- The length of alternatives. Those before the first fixed one do not count. -/
def commonLength? : (known : Option Nat) → List Matcher → Option Nat
  | known, [] => known
  | none, m :: ms => commonLength? (length? m) ms
  | some n, m :: ms => if length? m = some n then commonLength? (some n) ms else none

/-- The sum of the lengths. -/
def totalLength? : List Matcher → Option Nat
  | [] => some 0
  | m :: ms =>
    match length? m, totalLength? ms with
    | some a, some b => some (a + b)
    | _, _ => none

end

/-! ## Matching -/

/-- A place in a text and the numbers of bytes that may be taken there. -/
abbrev Place := Nat × List Nat

/-- The numbers of two rising lists in rising order. -/
def mergeRising : List Nat → List Nat → List Nat
  | [], ys => ys
  | xs, [] => xs
  | x :: xs, y :: ys =>
    if x = y then x :: mergeRising xs ys
    else if x < y then x :: mergeRising xs (y :: ys)
    else y :: mergeRising (x :: xs) ys
termination_by xs ys => xs.length + ys.length

/-- The first character that passes, and its size. -/
def findChar (test : Char → Bool) (t : Bytes) : Option Place :=
  ((offsets t).find? fun p => test p.2).map fun (i, c) => (i, [c.utf8Size])

/-- The beginnings of all characters, and the end. -/
def allCuts (t : Bytes) : List Nat := (offsets t).map (·.1) ++ [t.length]

/-- The ends of all occurrences of `w`, from the last one on, each before the one found last. The
text gets shorter with each, so its length bounds their number. -/
def endsOf (w : Bytes) : (fuel : Nat) → Bytes → List Nat
  | 0, _ => []
  | fuel + 1, t =>
    match Bytes.lastIndexOf? w t with
    | none => []
    | some i => (i + w.length) :: endsOf w fuel (t.take i)

/-- Cuts of a text that another matcher, `delta` bytes on, also has. -/
def sharedCuts (delta : Nat) (cuts more : List Nat) : List Nat :=
  cuts.flatMap fun c => more.filter fun n => n = c + delta

/-- The first character of a text from which on the test holds; `n` bytes must be left. -/
def findFrom (test : Bytes → Except GlobFault Bool) (n : Nat) (t : Bytes) :
    List Nat → Except GlobFault (Option Place)
  | [] => .ok none
  | i :: rest =>
    if t.length - i < n then .ok none
    else do
      if ← test (t.drop i) then return some (i, [n])
      else findFrom test n t rest

/-- One of the lengths, from the last one on, leaves a right side that passes. -/
def anyLength (right : Bytes → Except GlobFault Bool) (t : Bytes) : List Nat → Except GlobFault Bool
  | [] => .ok false
  | n :: ns => do
    if ← right (t.drop n) then return true
    else anyLength right t ns

/-- Looks for the value of a node from `offset` to `limit`, and tries what stands on its two sides.
Each round moves on by a character, so the length of the text bounds their number. -/
def search (find : Bytes → Except GlobFault (Option Place)) (left right : Bytes → Except GlobFault Bool)
    (t : Bytes) (limit : Nat) : (fuel offset : Nat) → Except GlobFault Bool
  | 0, _ => .ok false
  | fuel + 1, offset =>
    if limit ≤ offset then .ok false
    else do
      match ← find ((t.take limit).drop offset) with
      | none => return false
      | some (index, lengths) =>
        let here := offset + index
        if ← left (t.take here) then
          if ← anyLength right (t.drop here) lengths.reverse then return true
        let width := match t.drop here with
          | [] => 0
          | a :: r => r.length + 1 - (Utf8.step a r).2.length
        search find left right t limit fuel (here + width)

mutual

/-- The whole text passes. -/
def accepts : Matcher → Bytes → Except GlobFault Bool
  | edge, t => .ok t.isEmpty
  | nothing, t => .ok t.isEmpty
  | text s, t => .ok (Bytes.ofString s == t)
  | star, t => .ok (!List.contains t slash)
  | super, _ => .ok true
  | single, t => .ok ((onlyChar? t).any (· ≠ '/'))
  | list negated chars, t => .ok ((onlyChar? t).any fun c => chars.contains c != negated)
  | range negated lo hi, t => .ok ((onlyChar? t).any fun c => (lo ≤ c && c ≤ hi) != negated)
  | atLeast n, t => .ok (n ≤ (offsets t).length)
  | atMost n, t => .ok ((offsets t).length ≤ n)
  | avoids s, t => .ok (!Bytes.contains t (Bytes.ofString s))
  | contains s, t => .ok (Bytes.contains t (Bytes.ofString s))
  | startsWith s, t => .ok (Bytes.startsWith t (Bytes.ofString s))
  | endsWith s, t => .ok (Bytes.endsWith t (Bytes.ofString s))
  | encloses front back, t =>
    .ok (Bytes.startsWith t (Bytes.ofString front) && Bytes.endsWith t (Bytes.ofString back))
  | thenStar s, t => .ok ((Bytes.after? (Bytes.ofString s) t).any fun r => !List.contains r slash)
  | starThen s, t =>
    let w := Bytes.ofString s
    .ok (Bytes.endsWith t w && !List.contains (t.take (t.length - w.length)) slash)
  | anyOf ms, t => acceptsAny ms t
  | every ms, t => acceptsEvery ms t
  | row ms, t =>
    if totalLength? ms = some (offsets t).length then acceptsRow ms t else .ok false
  | node v l r, t =>
    if (length? (node v l r)).any (t.length < ·) then .ok false
    else search (find v) (accepts l) (accepts r) t (t.length - (length? r).getD 0) (t.length + 1)
      ((length? l).getD 0)

/-- One of the matchers accepts the text. -/
def acceptsAny : List Matcher → Bytes → Except GlobFault Bool
  | [], _ => .ok false
  | m :: ms, t => do
    if ← accepts m t then return true
    else acceptsAny ms t

/-- All matchers accept the text. -/
def acceptsEvery : List Matcher → Bytes → Except GlobFault Bool
  | [], _ => .ok true
  | m :: ms, t => do
    if ← accepts m t then acceptsEvery ms t
    else return false

/-- The matchers accept one stretch of the text after the other. A stretch ends one byte after the
beginning of its last character; one for no characters is all that is left. -/
def acceptsRow : List Matcher → Bytes → Except GlobFault Bool
  | [], _ => .ok true
  | m :: ms, t =>
    let n := (length? m).getD 0
    let starts := offsets t
    if starts.length < n then .ok false
    else
      match if n = 0 then starts.getLast? else starts[n - 1]? with
      | none => .error .pastEnd
      | some (last, _) => do
        if ← accepts m (t.take (last + 1)) then acceptsRow ms (t.drop (last + 1))
        else return false

/-- The first place that passes. -/
def find : Matcher → Bytes → Except GlobFault (Option Place)
  | edge, _ => .ok (some (0, [0]))
  | nothing, _ => .ok (some (0, [0]))
  | text s, t =>
    let w := Bytes.ofString s
    .ok ((Bytes.indexOf? w t).map fun i => (i, [w.length]))
  | star, t => .ok (some (0, allCuts (firstSegment t)))
  | super, t => .ok (some (0, allCuts t))
  | single, t => .ok (findChar (· ≠ '/') t)
  | list negated chars, t => .ok (findChar (fun c => chars.contains c != negated) t)
  | range negated lo hi, t => .ok (findChar (fun c => (lo ≤ c && c ≤ hi) != negated) t)
  | atLeast n, t =>
    let cuts := (ends t).drop (n - 1)
    .ok (if t.length < n || cuts.isEmpty then none else some (0, cuts))
  | atMost n, t => .ok (some (0, 0 :: (ends t).take n))
  | avoids s, t =>
    let t := t.take ((Bytes.indexOf? (Bytes.ofString s) t).getD t.length)
    .ok (some (0, allCuts t))
  | contains s, t =>
    let w := Bytes.ofString s
    match Bytes.indexOf? w t with
    | none => .ok none
    | some i =>
      let passed := i + w.length
      .ok (some (0, (allCuts (t.drop passed)).map (passed + ·)))
  | startsWith s, t =>
    let w := Bytes.ofString s
    .ok ((Bytes.indexOf? w t).map fun i =>
      (i, w.length :: (ends (t.drop (i + w.length))).map (w.length + ·)))
  | endsWith s, t =>
    let w := Bytes.ofString s
    .ok ((Bytes.indexOf? w t).map fun i => (0, [i + w.length]))
  | encloses front back, t =>
    match Bytes.indexOf? (Bytes.ofString front) t with
    | none => .ok none
    | some i =>
      let cuts := (endsOf (Bytes.ofString back) (t.length + 1) (t.drop i)).reverse
      .ok (if cuts.isEmpty then none else some (i, cuts))
  | thenStar s, t =>
    let w := Bytes.ofString s
    .ok ((Bytes.indexOf? w t).map fun i =>
      (i, w.length :: (ends (firstSegment (t.drop (i + w.length)))).map (w.length + ·)))
  | starThen s, t =>
    let w := Bytes.ofString s
    .ok ((Bytes.indexOf? w t).map fun i =>
      let segment := ((t.take i).reverse.takeWhile (· ≠ slash)).length
      (i - segment, [segment + w.length]))
  | anyOf ms, t => findAny none ms t
  | every ms, t => findEvery none 0 t ms t
  | row ms, t => findFrom (acceptsRow ms) ((totalLength? ms).getD 0) t ((offsets t).map (·.1))
  | node _ _ _, _ => .ok none

/-- The first place that one of the matchers has; matchers with the same place share their lengths. -/
def findAny : (best : Option Place) → List Matcher → Bytes → Except GlobFault (Option Place)
  | best, [], _ => .ok best
  | best, m :: ms, t => do
    match best, ← find m t with
    | best, none => findAny best ms t
    | none, some p => findAny (some p) ms t
    | some (i, lengths), some (j, more) =>
      if j < i then findAny (some (j, more)) ms t
      else if i < j then findAny (some (i, lengths)) ms t
      else findAny (some (i, mergeRising lengths more)) ms t

/-- The place that all matchers have, with the lengths that they agree on. -/
def findEvery : (best : Option Place) → (offset : Nat) → (whole : Bytes) → List Matcher → (t : Bytes) →
    Except GlobFault (Option Place)
  | best, _, _, [], _ => .ok best
  | best, offset, whole, m :: ms, t => do
    match best, ← find m t with
    | _, none => return none
    | none, some (i, lengths) =>
      findEvery (some (i + offset, lengths)) (offset + i) whole ms (whole.drop (i + offset))
    | some (index, lengths), some (i, more) =>
      let shared := sharedCuts (index - (i + offset)) lengths more
      if shared.isEmpty then return none
      else findEvery (some (i + offset, shared)) (offset + i) whole ms (whole.drop (i + offset))

end

end Matcher

end Glob

end ScriptSplit
