import ScriptSplit.Scan.Glob.Piece

/-!
# Terms of a glob

* `Glob.Term`: a glob as a tree of patterns and alternatives.
* `Glob.Term.ofPieces`: the tree of pieces; what is still open at the end is closed there.
* `Glob.Term.factored?`: alternatives with a common front or back, written with that part once.
-/

namespace ScriptSplit.Glob

/-- A glob as a tree. -/
inductive Term where
  | text (chars : List Char)
  | star
  | super
  | single
  | list (negated : Bool) (chars : List Char)
  | range (negated : Bool) (lo hi : Char)
  /-- Terms that follow each other. -/
  | pattern (parts : List Term)
  | anyOf (alternatives : List Term)
  /-- What is left of an alternative that its common parts use up. -/
  | nothing

namespace Term

mutual

/-- Two terms are written alike. -/
def same : Term → Term → Bool
  | text s, text t => s = t
  | star, star => true
  | super, super => true
  | single, single => true
  | list n s, list m t => n = m && s = t
  | range n a b, range m c d => n = m && a = c && b = d
  | pattern s, pattern t => sameAll s t
  | anyOf s, anyOf t => sameAll s t
  | nothing, nothing => true
  | _, _ => false

/-- Two lists of terms are written alike. -/
def sameAll : List Term → List Term → Bool
  | [], [] => true
  | s :: ss, t :: ts => same s t && sameAll ss ts
  | _, _ => false

end

/-! ## From pieces to a tree -/

/-- An open brace: what stands before it and the alternatives that are finished. -/
structure OpenGroup where
  before : List Term
  alternatives : List Term

/-- The terms of all open groups, closed from the inside out. -/
def closeAll : List OpenGroup → (parts : List Term) → List Term
  | [], parts => parts
  | g :: rest, parts => closeAll rest (g.before ++ [anyOf (g.alternatives ++ [pattern parts])])

/-- The terms of pieces, where `parts` were read in the innermost group. -/
def termsOf : List OpenGroup → (parts : List Term) → List Piece → List Term
  | groups, parts, [] => closeAll groups parts
  | groups, parts, .opening :: r => termsOf (⟨parts, []⟩ :: groups) [] r
  | g :: groups, parts, .comma :: r =>
    termsOf (⟨g.before, g.alternatives ++ [pattern parts]⟩ :: groups) [] r
  | g :: groups, parts, .closing :: r =>
    termsOf groups (g.before ++ [anyOf (g.alternatives ++ [pattern parts])]) r
  | groups, parts, .text chars :: r => termsOf groups (parts ++ [text chars]) r
  | groups, parts, .star :: r => termsOf groups (parts ++ [star]) r
  | groups, parts, .super :: r => termsOf groups (parts ++ [super]) r
  | groups, parts, .single :: r => termsOf groups (parts ++ [single]) r
  | groups, parts, .list n cs :: r => termsOf groups (parts ++ [list n cs]) r
  | groups, parts, .range n lo hi :: r => termsOf groups (parts ++ [range n lo hi]) r
  | [], parts, .comma :: r => termsOf [] parts r
  | [], parts, .closing :: r => termsOf [] parts r

/-- The tree of the pieces of a glob. -/
def ofPieces (ps : List Piece) : Term := pattern (termsOf [] [] ps)

/-! ## Common parts -/

/-- The parts of a pattern. -/
def parts? : Term → Option (List Term)
  | pattern parts => some parts
  | _ => none

/-- Terms at the same place of two alternatives are alike. -/
def sameAt (s : List Term) (i : Nat) (t : List Term) (j : Nat) : Bool :=
  match s[i]?, t[j]? with
  | some a, some b => same a b
  | _, _ => false

/-- The common parts found so far, and on which side the search goes on. -/
structure Common where
  front : List Term
  back : List Term
  stopsFront : Bool
  stopsBack : Bool

/-- Compares the shortest alternative with another one, `i` terms from both ends. The back stops where
the front has reached it. -/
def Common.compare (shortest : List Term) (i : Nat) (c : Common) (other : List Term) : Common :=
  if c.stopsFront && c.stopsBack then c
  else
    let n := shortest.length
    let j := n - 1 - i
    let stopsFront := c.stopsFront || !sameAt shortest i other i
    let stopsBack := c.stopsBack || (!stopsFront && j ≤ i) ||
      !sameAt shortest j other (j + other.length - n)
    { c with stopsFront := stopsFront, stopsBack := stopsBack }

/-- Takes the terms that are `i` from both ends into the common parts, if all alternatives have them. -/
def Common.step (shortest : List Term) (others : List (List Term)) (c : Common) (i : Nat) : Common :=
  let n := shortest.length
  if n ≤ c.front.length + c.back.length || (c.stopsFront && c.stopsBack) then c
  else
    let c := others.foldl (Common.compare shortest i) c
    let front := if c.stopsFront then c.front else c.front ++ shortest[i]?.toList
    let back := if c.stopsBack then c.back else shortest[n - 1 - i]?.toList ++ c.back
    { c with front := front, back := back }

/-- The place of the first shortest list. -/
def shortestIndex (alternatives : List (List Term)) : Nat :=
  (alternatives.zipIdx.foldl (fun best (a, i) =>
    match best with
    | none => some (a.length, i)
    | some (n, _) => if a.length < n then some (a.length, i) else best) none).elim 0 (·.2)

/-- The terms that all alternatives share at their front and at their back. -/
def commonParts (alternatives : List (List Term)) : List Term × List Term :=
  if alternatives.length ≤ 1 then ([], [])
  else
    let k := shortestIndex alternatives
    let shortest := alternatives[k]?.getD []
    let c := (List.range shortest.length).foldl (Common.step shortest (alternatives.eraseIdx k))
      ⟨[], [], false, false⟩
    (c.front, c.back)

/-- Adds a term that is not there yet. -/
def addNew (ts : List Term) (t : Term) : List Term := if ts.any (same t) then ts else ts ++ [t]

/-- Alternatives with a common front or back, written with that part once. -/
def factored? (alternatives : List Term) : Option Term :=
  match alternatives.mapM parts? with
  | none => none
  | some lists =>
    match commonParts lists with
    | ([], []) => none
    | (front, back) =>
      let rests := lists.foldl (fun ts parts =>
        let rest := (parts.take (parts.length - back.length)).drop front.length
        addNew ts (if rest.isEmpty then nothing else pattern rest)) []
      let middle := match rests with
        | [nothing] => []
        | [t] => [t]
        | ts => [anyOf ts]
      some (pattern ((if front.isEmpty then [] else [pattern front]) ++ middle ++
        if back.isEmpty then [] else [pattern back]))

end Term

end ScriptSplit.Glob
