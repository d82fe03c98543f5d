import Mathlib
import ScriptSplit.Proofs.Script.Blanking
import ScriptSplit.Proofs.Script.Declaration
import ScriptSplit.Proofs.Text.Boundary

/-!
# Bodies are cut between characters

Offsets count bytes, and the searches for bodies go byte by byte. In a well-formed text they stop at ASCII
bytes only: a body begins at a brace or behind an arrow and blanks, and it ends with a brace, or before a
semicolon, a newline or the end of the text. Blanking keeps the bytes around a body, and a byte that is
blanked is no continuation byte, so the places between characters stay where they are.

* `Span.Bounded`: header, begin and end lie between characters; `bounded_of_resolve`: those that are found.
* `boundary_blankSpan`, `isValid_blankSpan`: what blanking one body keeps.
* `isValid_blankSpans`: any number of bodies, one after the other.
-/

namespace ScriptSplit.Script

open Utf8

variable {t name : Bytes} {s : Span} {b : UInt8} {i header : Nat}

/-- The header, the begin and the end of the body lie between characters of the text. -/
structure Span.Bounded (s : Span) (t : Bytes) : Prop where
  header : Boundary t s.header
  first : Boundary t s.first
  last : Boundary t (s.last + 1)

theorem Span.Bounded.isValid_body (h : s.Bounded t) (ht : isValid t = true) (hfits : s.Fits t) :
    isValid (s.body t) = true :=
  isValid_slice ht h.first h.last (Nat.le_succ_of_le hfits.first_le)

theorem toNat_lt_of_isBlankByte (h : isBlankByte b = true) : b.toNat < 128 := by
  simp only [isBlankByte, Bool.or_eq_true, beq_iff_eq] at h
  rcases h with (((rfl | rfl) | rfl) | rfl) | rfl <;> decide

/-! ## Where bodies begin and end -/

theorem isExpression_bracedSpan {start : Nat} (h : bracedSpan t header start = .ok s) : s.isExpression = false := by
  unfold bracedSpan at h
  split at h
  · cases h
    rfl
  · cases h

/-- A body without braces begins where the head of its arrow function ends. -/
theorem arrowHead?_of_lambdaSpan (h : lambdaSpan t header = .ok s) (hexpr : s.isExpression = true) :
    ∃ rest, arrowHead? (t.drop header) = some rest ∧ s.first = t.length - rest.length := by
  unfold lambdaSpan at h
  split at h
  · rw [isExpression_bracedSpan h] at hexpr
    cases hexpr
  · next rest hrest =>
    simp only at h
    split at h
    · rw [isExpression_bracedSpan h] at hexpr
      cases hexpr
    · split at h
      · cases h
      · cases h
        exact ⟨rest, hrest, rfl⟩

theorem lambdaSpan_of_resolve (h : resolve t name = .ok s) (hexpr : s.isExpression = true) :
    lambdaSpan t s.header = .ok s := by
  unfold resolve at h
  split at h
  · rw [isExpression_bracedSpan h] at hexpr
    cases hexpr
  · split at h
    · rw [isExpression_bracedSpan h] at hexpr
      cases hexpr
    · split at h
      · rwa [← (lambdaSpan_safe h).2] at h
      · cases h

/-- Behind an arrow and blanks a character starts. -/
theorem boundary_first_of_lambdaSpan (ht : isValid t = true) (h : lambdaSpan t header = .ok s)
    (hexpr : s.isExpression = true) : Boundary t s.first := by
  obtain ⟨rest, hrest, hfirst⟩ := arrowHead?_of_lambdaSpan h hexpr
  obtain ⟨u, v, hdrop, hv, -⟩ := arrowHead?_eq_some hrest
  have hsplit : t = (t.take header ++ u) ++ ((Bytes.ofString "=>" ++ v) ++ rest) := by
    conv_lhs => rw [← List.take_append_drop header t, hdrop]
    simp only [List.append_assoc]
  have hascii : ∀ b ∈ Bytes.ofString "=>" ++ v, b.toNat < 128 :=
    List.forall_mem_append.mpr ⟨by decide +kernel, fun b hb => toNat_lt_of_isBlankByte (hv b hb)⟩
  have hne : Bytes.ofString "=>" ++ v ≠ [] := List.append_ne_nil_of_left_ne_nil (by decide) v
  have hbehind := boundary_behind (hsplit ▸ ht) hne hascii
  rw [← hsplit] at hbehind
  have hlength := congrArg List.length hsplit
  rw [← List.append_assoc, List.length_append] at hlength
  rwa [hfirst, hlength, Nat.add_sub_cancel]

/-- **The spans that are found** lie between characters. -/
theorem bounded_of_resolve (ht : isValid t = true) (h : resolve t name = .ok s) (hname : IsWord name) :
    s.Bounded t := by
  obtain ⟨hsafe, -⟩ := resolve_header h
  have hfits := hsafe.fits
  have hheader : Boundary t s.header := by
    obtain ⟨b, hb, hword⟩ := header_word h hname.1 hname.2
    exact boundary_of_ascii ht hb (toNat_lt_of_isWordByte hword)
  cases hexpr : s.isExpression with
  | false =>
    obtain ⟨hopens, hcloses⟩ := hsafe.braced hexpr
    rw [hfits.head?_body] at hopens
    rw [hfits.getLast?_body] at hcloses
    exact ⟨hheader, boundary_of_ascii ht hopens (by decide), boundary_succ ht hcloses (by decide)⟩
  | true =>
    refine ⟨hheader, boundary_first_of_lambdaSpan ht (lambdaSpan_of_resolve h hexpr) hexpr, ?_⟩
    obtain hend | hsemicolon | hnewline := (hsafe.statement hexpr).maximal
    · exact hend ▸ boundary_length ht
    · exact boundary_of_ascii ht hsemicolon (by decide)
    · exact boundary_of_ascii ht hnewline (by decide)

namespace Outline

theorem bounded_of_mem_spans (ht : isValid t = true) {p : String × Span} (hp : p ∈ (ofText t).spans) :
    p.2.Bounded t ∧ p.2.Fits t := by
  obtain ⟨e, he, -, hspan⟩ := mem_spans.mp hp
  obtain ⟨d, hd, rfl⟩ := List.mem_map.mp he
  obtain ⟨i, -, hrun⟩ := (declared_extract hd).run
  exact ⟨bounded_of_resolve ht hspan hrun.word, (resolve_header hspan).1.fits⟩

/-! ## Blanking -/

theorem blanked_byte {c : UInt8} (h : (blankSpan t s)[i]? = some b) (hc : t[i]? = some c) :
    b = c ∨ b = 0x20 := by
  rw [getElem?_blankSpan, hc, Option.map_some, Option.some_inj] at h
  split_ifs at h
  · exact .inr h.symm
  · exact .inl h.symm

theorem take_blankSpan (t : Bytes) (s : Span) : (blankSpan t s).take s.first = t.take s.first := by
  apply List.ext_getElem?
  intro i
  rw [List.getElem?_take, List.getElem?_take]
  split_ifs with hi
  · have hcovers : s.covers i = false := by simp [Span.covers, hi]
    simp [getElem?_blankSpan, hcovers]
  · rfl

theorem drop_blankSpan (t : Bytes) (s : Span) : (blankSpan t s).drop (s.last + 1) = t.drop (s.last + 1) := by
  apply List.ext_getElem?
  intro i
  have hcovers : s.covers (s.last + 1 + i) = false := by
    simp only [Span.covers, Bool.and_eq_false_iff, decide_eq_false_iff_not]
    omega
  simp [List.getElem?_drop, getElem?_blankSpan, hcovers]

/-- What is left of a body is spaces and newlines. -/
theorem ascii_body_blankSpan (t : Bytes) (s : Span) : ∀ b ∈ s.body (blankSpan t s), b.toNat < 128 := by
  intro b hb
  obtain ⟨k, hk⟩ := List.mem_iff_getElem?.mp hb
  rw [Span.body, List.getElem?_drop, List.getElem?_take] at hk
  split_ifs at hk with hlast
  have hcovers : s.covers (s.first + k) = true := by
    simp only [Span.covers, Bool.and_eq_true, decide_eq_true_eq]
    omega
  rw [getElem?_blankSpan, Option.map_eq_some_iff] at hk
  obtain ⟨c, -, rfl⟩ := hk
  by_cases hc : c = newlineByte
  · simp [hc, newlineByte]
  · simp [hcovers, hc]

/-- **One body is blanked**: the text stays well-formed. -/
theorem isValid_blankSpan (h : s.Bounded t) (hle : s.first ≤ s.last) :
    isValid (blankSpan t s) = true := by
  have hsplit : blankSpan t s = t.take s.first ++ (s.body (blankSpan t s) ++ t.drop (s.last + 1)) := by
    rw [← take_blankSpan, ← drop_blankSpan t s, Span.body]
    conv_lhs => rw [← List.take_append_drop (s.last + 1) (blankSpan t s)]
    rw [← List.append_assoc]
    congr 1
    conv_lhs => rw [← List.take_append_drop s.first ((blankSpan t s).take (s.last + 1))]
    rw [List.take_take, Nat.min_eq_left (by omega)]
  rw [hsplit]
  exact isValid_append h.first.before (isValid_append (isValid_of_ascii (ascii_body_blankSpan t s)) h.last.after)

/-- Blanking moves no character. -/
theorem boundary_blankSpan (ht : isValid t = true) (hblank : isValid (blankSpan t s) = true) (h : Boundary t i) :
    Boundary (blankSpan t s) i := by
  obtain ⟨hle, hnext⟩ := (boundary_iff ht).mp h
  refine (boundary_iff hblank).mpr ⟨by rwa [length_blankSpan], fun b hb => ?_⟩
  have hlt : i < t.length := by
    rw [← length_blankSpan t s]
    exact (List.getElem?_eq_some_iff.mp hb).1
  obtain rfl | rfl := blanked_byte hb (List.getElem?_eq_getElem hlt)
  · exact hnext _ (List.getElem?_eq_getElem hlt)
  · decide

theorem bounded_blankSpan {s' : Span} (ht : isValid t = true) (hblank : isValid (blankSpan t s) = true)
    (h : s'.Bounded t) : s'.Bounded (blankSpan t s) :=
  ⟨boundary_blankSpan ht hblank h.header, boundary_blankSpan ht hblank h.first, boundary_blankSpan ht hblank h.last⟩

/-- **Any bodies are blanked**, one after the other: the text stays well-formed. -/
theorem isValid_blankSpans {spans : List (String × Span)} (ht : isValid t = true)
    (hspans : ∀ p ∈ spans, p.2.Bounded t ∧ p.2.first ≤ p.2.last) : isValid (blankSpans spans t) = true := by
  induction spans generalizing t with
  | nil => exact ht
  | cons p spans ih =>
    obtain ⟨hbounded, hle⟩ := hspans p List.mem_cons_self
    have hblank := isValid_blankSpan hbounded hle
    refine ih hblank fun q hq => ?_
    obtain ⟨hq, hqle⟩ := hspans q (List.mem_cons_of_mem p hq)
    exact ⟨bounded_blankSpan ht hblank hq, hqle⟩

theorem isValid_outside (ht : isValid t = true) : isValid ((ofText t).outside t) = true := by
  refine isValid_blankSpans ht fun p hp => ?_
  obtain ⟨hbounded, hfits⟩ := bounded_of_mem_spans ht hp
  exact ⟨hbounded, hfits.first_le⟩

end Outline

end ScriptSplit.Script
