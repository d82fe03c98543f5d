import Mathlib
import ScriptSplit.Text.Lines

/-!
# Lines and newlines

* `eq_bisect`: what the search by bisection finds.
* `lineStarts_strict`, `countP_lineStarts`: the offsets at which lines start.
* **`Bytes.lineAt_eq`**: the line of a byte counts the newlines before it.
-/

namespace ScriptSplit

/-! ## Bisection -/

/-- The range that is left always has the first number that passes in it, or ends at it. -/
theorem eq_bisect {test : Nat → Bool} {low high n : Nat} (hlow : low ≤ n) (hhigh : n ≤ high)
    (hfail : ∀ i < n, test i = false) (hpass : ∀ i, n ≤ i → i < high → test i = true) :
    bisect test low high = n := by
  fun_induction bisect test low high with
  | case1 low high hlt middle htest ih =>
    have hle : n ≤ middle := by
      by_contra hgt
      rw [hfail middle (by omega)] at htest
      cases htest
    exact ih hlow hle fun i hi him => hpass i hi (by omega)
  | case2 low high hlt middle htest ih =>
    have hle : middle + 1 ≤ n := by
      by_contra hgt
      exact htest (hpass middle (by omega) (by omega))
    exact ih hle hhigh hpass
  | case3 low high hge => omega

/-- In an increasing list, the numbers up to a bound come first. -/
theorem lt_getElem_iff {l : List Nat} (h : l.Pairwise (· < ·)) (bound : Nat) {i : Nat} (hi : i < l.length) :
    bound < l[i] ↔ l.countP (· ≤ bound) ≤ i := by
  induction l generalizing i with
  | nil => simp at hi
  | cons a l ih =>
    obtain ⟨ha, hl⟩ := List.pairwise_cons.mp h
    by_cases hle : a ≤ bound
    · rw [List.countP_cons_of_pos (by simpa using hle)]
      cases i with
      | zero => simpa using hle
      | succ i =>
        rw [List.getElem_cons_succ, ih hl (by simpa using hi)]
        omega
    · have hall : ∀ b ∈ a :: l, ¬ b ≤ bound := by
        rintro b (_ | ⟨_, hb⟩)
        · exact hle
        · have := ha b hb
          omega
      have hzero : (a :: l).countP (· ≤ bound) = 0 := List.countP_eq_zero.mpr fun b hb => by simpa using hall b hb
      rw [hzero]
      exact iff_of_true (not_le.mp (hall _ (List.getElem_mem hi))) (Nat.zero_le i)

namespace Bytes

/-! ## The starts of lines -/

theorem lt_of_mem_lineStartsFrom {t : Bytes} {offset start : Nat} (h : start ∈ lineStartsFrom offset t) :
    offset < start := by
  induction t generalizing offset with
  | nil => cases h
  | cons b r ih =>
    rw [lineStartsFrom] at h
    split_ifs at h
    · obtain rfl | h := List.mem_cons.mp h
      · exact Nat.lt_succ_self offset
      · exact Nat.lt_of_succ_lt (ih h)
    · exact Nat.lt_of_succ_lt (ih h)

theorem lineStartsFrom_strict (offset : Nat) (t : Bytes) : (lineStartsFrom offset t).Pairwise (· < ·) := by
  induction t generalizing offset with
  | nil => exact List.Pairwise.nil
  | cons b r ih =>
    rw [lineStartsFrom]
    split_ifs
    · exact List.pairwise_cons.mpr ⟨fun start hstart => lt_of_mem_lineStartsFrom hstart, ih _⟩
    · exact ih _

/-- Up to an offset there start as many lines as newlines stand before it. -/
theorem countP_lineStartsFrom (t : Bytes) (offset bound : Nat) :
    (lineStartsFrom offset t).countP (· ≤ bound) = (t.take (bound - offset)).count newlineByte := by
  induction t generalizing offset with
  | nil => simp [lineStartsFrom]
  | cons b r ih =>
    by_cases hle : offset + 1 ≤ bound
    · rw [show bound - offset = bound - (offset + 1) + 1 by omega, List.take_succ_cons, lineStartsFrom]
      split_ifs with hb
      · rw [List.countP_cons_of_pos (by simpa using hle), ih, eq_of_beq hb, List.count_cons_self]
      · rw [ih, List.count_cons_of_ne (by simpa using hb)]
    · have hzero : (lineStartsFrom offset (b :: r)).countP (· ≤ bound) = 0 :=
        List.countP_eq_zero.mpr fun start hstart => by
          have := lt_of_mem_lineStartsFrom hstart
          simp only [decide_eq_true_eq]
          omega
      rw [hzero, show bound - offset = 0 by omega]
      rfl

/-- **The line of a byte** is one more than the number of newlines before it. -/
theorem lineAt_eq (t : Bytes) (offset : Nat) : t.lineAt offset = 1 + (t.take offset).count newlineByte := by
  have hstrict : (0 :: lineStartsFrom 0 t).Pairwise (· < ·) :=
    List.pairwise_cons.mpr ⟨fun start hstart => lt_of_mem_lineStartsFrom hstart, lineStartsFrom_strict 0 t⟩
  have hcount : (0 :: lineStartsFrom 0 t).countP (· ≤ offset) = 1 + (t.take offset).count newlineByte := by
    rw [List.countP_cons_of_pos (by simp), countP_lineStartsFrom, Nat.sub_zero, Nat.add_comm]
  rw [← hcount]
  have htest : ∀ i < (0 :: lineStartsFrom 0 t).length,
      (offset < t.lineStarts.getD i 0) ↔ (0 :: lineStartsFrom 0 t).countP (· ≤ offset) ≤ i := by
    intro i hi
    rw [← lt_getElem_iff hstrict offset hi, lineStarts, Array.getD_eq_getD_getElem?, List.getElem?_toArray,
      List.getElem?_eq_getElem hi, Option.getD_some]
  refine eq_bisect (Nat.zero_le _) List.countP_le_length (fun i hi => ?_) fun i hi hlt => ?_
  · have hlength : i < (0 :: lineStartsFrom 0 t).length := hi.trans_le List.countP_le_length
    exact decide_eq_false fun hpass => absurd ((htest i hlength).mp hpass) (Nat.not_le.mpr hi)
  · exact decide_eq_true ((htest i hlt).mpr hi)

end Bytes

end ScriptSplit
