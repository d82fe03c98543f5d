import ScriptSplit.Text.Dict

/-!
# Cycles

Groups of functions that reach each other along dependencies.

* `reachable`: everything that a list of names leads to.
* `cycleGroups`: the groups of at least two functions, each of which reaches all the others.
-/

namespace ScriptSplit

/-- Marking a node as seen leaves fewer nodes unseen. -/
theorem countP_unseen_lt (nodes : List String) {x : String} {seen : List String}
    (hx : x ∈ nodes) (hs : x ∉ seen) :
    nodes.countP (fun y => !(x :: seen).contains y) < nodes.countP (fun y => !seen.contains y) := by
  have hmono : ∀ l : List String,
      l.countP (fun y => !(x :: seen).contains y) ≤ l.countP (fun y => !seen.contains y) := by
    intro l
    refine List.countP_mono_left fun y _ hy => ?_
    simp only [List.contains_cons, Bool.not_or, Bool.and_eq_true] at hy
    exact hy.2
  induction nodes with
  | nil => simp at hx
  | cons y ys ih =>
    have hys := hmono ys
    by_cases hy : y = x
    · subst hy
      have hseen : seen.contains y = false := by simpa using hs
      rw [List.countP_cons, List.countP_cons, hseen]
      simp only [List.contains_cons, beq_self_eq_true, Bool.true_or, Bool.not_true,
        Bool.false_eq_true, if_false, Bool.not_false, if_true] at hys ⊢
      omega
    · have hxs : x ∈ ys := by
        rcases List.mem_cons.1 hx with h | h
        · exact absurd h.symm hy
        · exact h
      have := ih hxs
      have hyx : (y == x) = false := by simpa using hy
      simp only [List.countP_cons, List.contains_cons, hyx, Bool.false_or] at this ⊢
      omega

/-- Collects the names of `nodes` that `pending` leads to, beside those in `seen`. -/
def reachableFrom (nodes : List String) (next : String → List String)
    (seen pending : List String) : List String :=
  match pending with
  | [] => seen
  | x :: rest =>
    if x ∈ nodes ∧ x ∉ seen then reachableFrom nodes next (x :: seen) (next x ++ rest)
    else reachableFrom nodes next seen rest
termination_by (nodes.countP (fun y => !seen.contains y), pending.length)
decreasing_by
  · rename_i h
    exact Prod.Lex.left _ _ (countP_unseen_lt nodes h.1 h.2)
  · exact Prod.Lex.right _ (by simp)

/-- The names that `start` leads to in one or more steps. -/
def reachable (nodes : List String) (next : String → List String) (start : String) : List String :=
  reachableFrom nodes next [] (next start)

/-- The groups of two or more names that all reach each other, each sorted, ordered by their first
names. The list of nodes has no name twice. -/
def cycleGroups (nodes : List String) (next : String → List String) : List (List String) :=
  let ordered := sortStrings nodes
  let table := ordered.map fun x => (x, reachable nodes next x)
  let leadsTo := fun x y => ((table.lookup x).getD []).contains y
  ordered.filterMap fun x =>
    let group := ordered.filter fun y => y == x || (leadsTo x y && leadsTo y x)
    if group.head? == some x && 2 ≤ group.length then some group else none

end ScriptSplit
