import ScriptSplit.Scan.Glob.Matcher
import ScriptSplit.Scan.Glob.Term

/-!
# From terms to matchers

The matchers of the parts of a pattern are glued where they form a run of equal wildcards or have
fixed lengths. What is left is a node: its value is the longest part of fixed length, and the parts
before and after it stand on its two sides.

* `Glob.Matcher.simplified`: a matcher in its plainest form.
* `Glob.Matcher.glued?`: matchers that follow each other as one.
* `Glob.Term.matcher`: the matcher of a term.
-/

namespace ScriptSplit.Glob

namespace Matcher

/-- A text with a wildcard on one or both sides. -/
def aroundText (s : String) (left right : Matcher) : Matcher :=
  match left, right with
  | edge, edge => text s
  | super, super => contains s
  | super, edge => endsWith s
  | edge, super => startsWith s
  | edge, endsWith back => encloses s back
  | startsWith front, edge => encloses front s
  | star, edge => starThen s
  | edge, star => thenStar s
  | left, right => node (text s) left right

/-- A matcher in its plainest form. -/
def simplified : Matcher → Matcher
  | anyOf [m] => m
  | list false [c] => text (String.singleton c)
  | node (text s) l r => aroundText s (simplified l) (simplified r)
  | node v l r => node v (simplified l) (simplified r)
  | m => m

/-! ## Gluing -/

/-- What a wildcard does not take, and the number of characters that it must take. -/
def wildcard? : Matcher → Option (List Char × Nat)
  | super => some ([], 0)
  | star => some (['/'], 0)
  | single => some (['/'], 1)
  | list true chars => some (chars, 1)
  | _ => none

/-- The matcher takes any number of characters. -/
def isOpen : Matcher → Bool
  | super => true
  | star => true
  | _ => false

/-- Wildcards that leave out the same characters, as one matcher. -/
def gluedWildcards? (ms : List Matcher) : Option Matcher :=
  match ms.mapM wildcard? with
  | none => none
  | some [] => none
  | some ((chars, n) :: rest) =>
    if rest.all fun w => w.1 = chars then
      let least := rest.foldr (fun w k => w.2 + k) n
      let hasOpen := ms.any isOpen
      if least = 0 then some (if chars.isEmpty then super else star)
      else if hasOpen && chars.isEmpty then some (atLeast least)
      else some (every (atLeast least :: (if hasOpen then [] else [atMost least]) ++
        if chars.isEmpty then [] else [avoids (String.ofList chars)]))
    else none

/-- Two or more matchers that follow each other, as one. -/
def glued? (ms : List Matcher) : Option Matcher :=
  if ms.length ≤ 1 then none
  else
    match gluedWildcards? ms with
    | some m => some m
    | none => (totalLength? ms).map fun _ => row ms

/-- A stretch of matchers that can be glued. -/
structure Stretch where
  glued : Matcher
  first : Nat
  count : Nat

/-- A later stretch is better if it is longer, in characters or in matchers. -/
def Stretch.isBetter (s best : Stretch) : Bool :=
  (match best.glued.length?, s.glued.length? with
    | some m, some n => decide (m < n)
    | _, _ => false) || best.count < s.count

/-- The stretches that can be glued, from the left and the longest first. -/
def stretches (ms : List Matcher) : List Stretch :=
  (List.range ms.length).flatMap fun first =>
    ((List.range (ms.length - first)).reverse.map (· + 1)).filterMap fun count =>
      (glued? ((ms.drop first).take count)).map fun m => ⟨m, first, count⟩

/-- The best stretch. -/
def bestStretch? (ms : List Matcher) : Option Stretch :=
  (stretches ms).foldl (fun best s =>
    match best with
    | none => some s
    | some b => if s.isBetter b then some s else some b) none

/-- The matchers with stretches glued until none is left. Each gluing leaves fewer of them, so their
number bounds the rounds. -/
def minimizedIn : (fuel : Nat) → List Matcher → List Matcher
  | 0, ms => ms
  | fuel + 1, ms =>
    match bestStretch? ms with
    | none => ms
    | some s => minimizedIn fuel (ms.take s.first ++ [s.glued] ++ ms.drop (s.first + s.count))

/-- The matchers with stretches glued until none is left. -/
def minimized (ms : List Matcher) : List Matcher := minimizedIn ms.length ms

/-- The place of the last matcher with the greatest fixed length. -/
def longestIndex? (ms : List Matcher) : Option Nat :=
  (ms.zipIdx.foldl (fun best (m, i) =>
    match m.length?, best with
    | none, best => best
    | some n, none => some (n, i)
    | some n, some (k, j) => if k ≤ n then some (n, i) else some (k, j)) none).map (·.2)

/-- Matchers that follow each other, as one. Both sides of a node have fewer matchers, so their number
bounds the depth. -/
def joinedIn : (fuel : Nat) → List Matcher → Matcher
  | 0, _ => edge
  | _, [] => edge
  | _, [m] => m
  | fuel + 1, m :: ms =>
    match glued? (m :: ms) with
    | some g => g
    | none =>
      match longestIndex? (m :: ms) with
      | none => node m edge (joinedIn fuel ms)
      | some i =>
        node ((m :: ms)[i]?.getD m) (joinedIn fuel ((m :: ms).take i))
          (joinedIn fuel ((m :: ms).drop (i + 1)))

/-- Matchers that follow each other, as one. -/
def joined (ms : List Matcher) : Matcher := joinedIn (ms.length + 1) ms

end Matcher

/-- The matcher of a term, for terms that are nested no deeper than `fuel`. -/
def Term.matcherIn : (fuel : Nat) → Term → Matcher
  | 0, _ => .nothing
  | _, .text chars => .text (String.ofList chars)
  | _, .star => .star
  | _, .super => .super
  | _, .single => .single
  | _, .nothing => .nothing
  | _, .list negated chars => Matcher.simplified (.list negated chars)
  | _, .range negated lo hi => .range negated lo hi
  | _, .pattern [] => .nothing
  | fuel + 1, .pattern parts =>
    (Matcher.joined (Matcher.minimized (parts.map fun p => (p.matcherIn fuel).simplified))).simplified
  | fuel + 1, .anyOf alternatives =>
    match factored? alternatives with
    | some t => t.matcherIn fuel
    | none => .anyOf (alternatives.map fun a => (a.matcherIn fuel).simplified)

end ScriptSplit.Glob
