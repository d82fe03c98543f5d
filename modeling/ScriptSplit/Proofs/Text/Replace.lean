import Mathlib
import ScriptSplit.Text.Replace

/-!
# Replaced text

One step of a replacement at the start of a text, and what follows for whole blocks of characters.

* `replaceChars_letter`, `replaceChars_match`: where nothing is found, and where something is.
* `replaceChars_block`: a block in which nothing starts is left as it is.
* `replaceChars_singleton`: a single character is replaced wherever it stands.
-/

namespace ScriptSplit

variable {old new : List Char}

/-- A character that starts no occurrence is kept. -/
theorem replaceChars_letter {c : Char} {r : List Char} (h : ¬ old <+: c :: r) :
    replaceChars old new 0 (c :: r) = c :: replaceChars old new 0 r := by
  have hnot : old.isPrefixOf (c :: r) = false := by
    rw [Bool.eq_false_iff, ne_eq, List.isPrefixOf_iff_prefix]
    exact h
  rw [replaceChars, hnot, Bool.and_false]
  rfl

/-- The characters of an occurrence that was replaced are dropped. -/
theorem replaceChars_skip (w r : List Char) :
    replaceChars old new w.length (w ++ r) = replaceChars old new 0 r := by
  induction w with
  | nil => rfl
  | cons c w ih => exact ih

/-- An occurrence is replaced. -/
theorem replaceChars_match (h : old ≠ []) (r : List Char) :
    replaceChars old new 0 (old ++ r) = new ++ replaceChars old new 0 r := by
  obtain ⟨c, w, rfl⟩ := List.exists_cons_of_ne_nil h
  have hfound : (c :: w).isPrefixOf (c :: (w ++ r)) = true := by
    rw [List.isPrefixOf_iff_prefix]
    exact ⟨r, rfl⟩
  rw [List.cons_append, replaceChars, hfound]
  exact congrArg (new ++ ·) (replaceChars_skip w r)

/-- **A block in which no occurrence starts** is kept. -/
theorem replaceChars_block {w r : List Char} (h : ∀ b, b ≠ [] → b <:+ w → ¬ old <+: b ++ r) :
    replaceChars old new 0 (w ++ r) = w ++ replaceChars old new 0 r := by
  induction w with
  | nil => rfl
  | cons c w ih =>
    have hfirst : ¬ old <+: c :: (w ++ r) := h (c :: w) (List.cons_ne_nil c w) (List.suffix_refl _)
    rw [List.cons_append, replaceChars_letter hfirst,
      ih fun b hb hsuffix => h b hb (hsuffix.trans (List.suffix_cons c w)), List.cons_append]

/-- **A single character** is replaced wherever it stands. -/
theorem replaceChars_singleton (c : Char) (new l : List Char) :
    replaceChars [c] new 0 l = l.flatMap fun x => if x = c then new else [x] := by
  induction l with
  | nil => rfl
  | cons x l ih =>
    rw [List.flatMap_cons, ← ih]
    by_cases hx : x = c
    · rw [if_pos hx, hx]
      exact replaceChars_match (List.cons_ne_nil c []) l
    · rw [if_neg hx]
      exact replaceChars_letter fun h => hx (List.cons_prefix_cons.mp h).1.symm

end ScriptSplit
