import Mathlib
import ScriptSplit.Proofs.Text.Lossy

/-!
# Character boundaries

A well-formed text falls into well-formed parts wherever no continuation byte follows. Scans for ASCII bytes
stop at such places only, so they never cut a character in two.

* `Boundary`: a place between two characters.
* `isValid_append`, `isValid_of_ascii`: texts that are put together, and ASCII texts.
* **`boundary_iff`**: the boundaries of a well-formed text, by the byte that follows.
* `boundary_succ`, `boundary_behind`: behind ASCII bytes; `isValid_slice`: the text between two boundaries.
-/

namespace ScriptSplit.Utf8

variable {t u : Bytes} {b : UInt8} {i j : Nat}

/-- The offset lies between two characters or at an end of the text: what stands before it and what follows
it are well-formed. -/
structure Boundary (t : Bytes) (i : Nat) : Prop where
  le : i ≤ t.length
  before : isValid (t.take i) = true
  after : isValid (t.drop i) = true

theorem isValid_append (ht : isValid t = true) (hu : isValid u = true) : isValid (t ++ u) = true := by
  obtain ⟨s, rfl⟩ := isValid_iff.mp ht
  obtain ⟨s', rfl⟩ := isValid_iff.mp hu
  exact isValid_iff.mpr ⟨s ++ s', Bytes.ofString_append s s'⟩

theorem isValid_of_ascii (h : ∀ b ∈ t, b.toNat < 128) : isValid t = true :=
  isValid_iff.mpr ⟨Bytes.ascii t, Bytes.ofString_ascii h⟩

theorem not_isTail_of_ascii (h : b.toNat < 128) : isTail b = false := by
  rw [← Bool.not_eq_true]
  intro htail
  have := toNat_of_isTail htail
  omega

/-- A well-formed text begins with no continuation byte. -/
theorem not_isTail_of_isValid (h : isValid (b :: t) = true) : isTail b = false := by
  rw [← Bool.not_eq_true]
  intro htail
  have hbounds := toNat_of_isTail htail
  have hnone : (step b t).1 = none := by
    have hhigh : ¬ b < 0x80 := not_lt_of_toNat hbounds.1
    have hlow : b < 0xc2 := UInt8.lt_iff_toNat_lt.mpr (hbounds.2.trans_lt (by decide))
    unfold step
    rw [if_neg hhigh, if_pos (by simp [hlow])]
  rw [isValid, chars_stray hnone] at h
  simp at h

/-- **The boundaries of a well-formed text** are the places that no continuation byte follows. -/
theorem boundary_iff (ht : isValid t = true) :
    Boundary t i ↔ i ≤ t.length ∧ ∀ b, t[i]? = some b → isTail b = false := by
  constructor
  · rintro ⟨hle, -, hafter⟩
    refine ⟨hle, fun b hb => ?_⟩
    obtain ⟨hlt, rfl⟩ := List.getElem?_eq_some_iff.mp hb
    rw [List.drop_eq_getElem_cons hlt] at hafter
    exact not_isTail_of_isValid hafter
  · rintro ⟨hle, hnext⟩
    have hhead : (t.drop i).takeWhile isTail = [] := by
      cases hdrop : t.drop i with
      | nil => rfl
      | cons b r =>
        have hb : t[i]? = some b := by rw [← List.head?_drop, hdrop, List.head?_cons]
        rw [List.takeWhile_cons_of_neg (by simp [hnext b hb])]
    rw [isValid, ← List.take_append_drop i t, chars_append hhead, List.all_append, Bool.and_eq_true] at ht
    exact ⟨hle, ht.1, ht.2⟩

theorem boundary_of_ascii (ht : isValid t = true) (hb : t[i]? = some b) (hascii : b.toNat < 128) : Boundary t i := by
  refine (boundary_iff ht).mpr ⟨(List.getElem?_eq_some_iff.mp hb).1.le, fun c hc => ?_⟩
  obtain rfl := Option.some_inj.mp (hb.symm.trans hc)
  exact not_isTail_of_ascii hascii

/-- Behind an ASCII byte a character starts, or the text ends. -/
theorem boundary_succ (ht : isValid t = true) (hb : t[i]? = some b) (hascii : b.toNat < 128) : Boundary t (i + 1) := by
  have hhere := boundary_of_ascii ht hb hascii
  obtain ⟨hlt, rfl⟩ := List.getElem?_eq_some_iff.mp hb
  have hafter := hhere.after
  rw [List.drop_eq_getElem_cons hlt, isValid, chars, step_one _ hascii, List.all_cons, Bool.and_eq_true] at hafter
  refine ⟨hlt, ?_, hafter.2⟩
  rw [List.take_add_one, hb, Option.toList_some]
  exact isValid_append hhere.before (isValid_of_ascii (List.forall_mem_singleton.mpr hascii))

theorem boundary_behind {w r : Bytes} (ht : isValid (u ++ (w ++ r)) = true) (hne : w ≠ [])
    (hascii : ∀ b ∈ w, b.toNat < 128) : Boundary (u ++ (w ++ r)) (u ++ w).length := by
  obtain ⟨w, b, rfl⟩ := (List.eq_nil_or_concat' w).resolve_left hne
  have hb : (u ++ ((w ++ [b]) ++ r))[(u ++ w).length]? = some b := by simp
  have hlength : (u ++ (w ++ [b])).length = (u ++ w).length + 1 := by simp [Nat.add_assoc]
  rw [hlength]
  exact boundary_succ ht hb (hascii b (by simp))

theorem boundary_length (ht : isValid t = true) : Boundary t t.length :=
  (boundary_iff ht).mpr ⟨le_rfl, fun b hb => by simp at hb⟩

/-- **The text between two boundaries** is well-formed. -/
theorem isValid_slice (ht : isValid t = true) (hi : Boundary t i) (hj : Boundary t j) (hij : i ≤ j) :
    isValid ((t.take j).drop i) = true := by
  have hlength : i ≤ (t.take j).length := by
    rw [List.length_take]
    exact le_min hij hi.le
  have hnext : ∀ b, (t.take j)[i]? = some b → isTail b = false := by
    intro b hb
    rw [List.getElem?_take] at hb
    split_ifs at hb
    exact ((boundary_iff ht).mp hi).2 b hb
  exact ((boundary_iff hj.before).mpr ⟨hlength, hnext⟩).after

end ScriptSplit.Utf8
