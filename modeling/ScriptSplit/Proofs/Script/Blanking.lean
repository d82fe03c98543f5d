import Mathlib
import ScriptSplit.Proofs.Registry.Edges
import ScriptSplit.Proofs.Text.Lines

/-!
# Blanking bodies out

Spans may nest, overlap or coincide, and they are blanked one after the other. What has become of a
byte in the end depends on whether some span covers it, so the order of the spans makes no difference.

* `getElem?_blankSpans`: a byte after all spans are blanked.
* `Outline.Covered`, `Outline.Blanked`: the text with exactly the bodies blanked out.
* **`outside_blanked`**: every order of the spans leads to this text.
-/

namespace ScriptSplit.Script.Outline

variable {spans : List (String × Span)} {t : Bytes}

theorem length_blankSpan (t : Bytes) (s : Span) : (blankSpan t s).length = t.length := List.length_mapIdx

theorem getElem?_blankSpan (t : Bytes) (s : Span) (i : Nat) :
    (blankSpan t s)[i]? = t[i]?.map fun b => if s.covers i && b != newlineByte then 0x20 else b :=
  List.getElem?_mapIdx

theorem length_blankSpans (spans : List (String × Span)) (t : Bytes) :
    (blankSpans spans t).length = t.length := by
  induction spans generalizing t with
  | nil => rfl
  | cons p spans ih => exact (ih _).trans (length_blankSpan t p.2)

/-- A span never takes back what another one did: a space is no newline, so it stays a space. -/
theorem getElem?_blankSpans (spans : List (String × Span)) (t : Bytes) (i : Nat) :
    (blankSpans spans t)[i]? =
      t[i]?.map fun b => if spans.any (fun p => p.2.covers i) && b != newlineByte then 0x20 else b := by
  induction spans generalizing t with
  | nil => simp [blankSpans]
  | cons p spans ih =>
    have hstep : (blankSpans (p :: spans) t)[i]? = (blankSpans spans (blankSpan t p.2))[i]? := rfl
    rw [hstep, ih, getElem?_blankSpan, Option.map_map]
    congr 1
    funext b
    have hspace : (0x20 : UInt8) ≠ newlineByte := by decide
    by_cases hb : b = newlineByte
    · simp [hb]
    · by_cases hcover : p.2.covers i = true
      · simp [hcover, hb, hspace]
      · rw [Bool.not_eq_true] at hcover
        simp only [Function.comp_apply, List.any_cons, hcover, Bool.false_and, Bool.false_or, Bool.false_eq_true,
          if_false]

/-- Spans may be blanked in any order. -/
theorem blankSpans_perm {spans' : List (String × Span)} (h : spans.Perm spans') (t : Bytes) :
    blankSpans spans t = blankSpans spans' t := by
  apply List.ext_getElem?
  intro i
  rw [getElem?_blankSpans, getElem?_blankSpans, h.any_eq]

/-! ## The text outside of bodies -/

/-- The byte at `i` lies in a body that was found. -/
def Covered (o : Outline) (i : Nat) : Prop := ∃ p ∈ o.spans, p.2.covers i = true

theorem covered_iff {o : Outline} {i : Nat} : o.Covered i ↔ o.spans.any (fun p => p.2.covers i) = true :=
  List.any_eq_true.symm

/-- The text with the bodies of an outline blanked out: nothing else is changed, and every byte keeps
its place and its line. -/
structure Blanked (o : Outline) (t blank : Bytes) : Prop where
  length : blank.length = t.length
  kept : ∀ i, ¬ o.Covered i → blank[i]? = t[i]?
  newline : ∀ i, o.Covered i → t[i]? = some newlineByte → blank[i]? = some newlineByte
  space : ∀ i b, o.Covered i → t[i]? = some b → b ≠ newlineByte → blank[i]? = some 0x20
  line : ∀ i, blank.lineAt i = t.lineAt i

/-- Blanking leaves the newlines. -/
theorem map_isNewline_blankSpans (spans : List (String × Span)) (t : Bytes) :
    (blankSpans spans t).map (· == newlineByte) = t.map (· == newlineByte) := by
  apply List.ext_getElem?
  intro i
  rw [List.getElem?_map, List.getElem?_map, getElem?_blankSpans, Option.map_map]
  congr 1
  funext b
  by_cases hb : b = newlineByte
  · simp [hb]
  · have hspace : ((0x20 : UInt8) == newlineByte) = false := by decide
    by_cases hcover : spans.any (fun p => p.2.covers i) = true
    · simp [hcover, hb, hspace]
    · simp [hcover]

theorem lineAt_blankSpans (spans : List (String × Span)) (t : Bytes) (i : Nat) :
    (blankSpans spans t).lineAt i = t.lineAt i := by
  have hcount : ∀ u : Bytes, (u.take i).count newlineByte = ((u.map (· == newlineByte)).take i).count true := by
    intro u
    rw [← List.map_take, List.count, List.count, List.countP_map]
    exact List.countP_congr fun b _ => by simp
  rw [Bytes.lineAt_eq, Bytes.lineAt_eq, hcount, hcount, map_isNewline_blankSpans]

theorem blanked_blankSpans (o : Outline) (t : Bytes) : o.Blanked t (blankSpans o.spans t) := by
  refine ⟨length_blankSpans _ t, fun i hi => ?_, fun i hi hb => ?_, fun i b hi hb hne => ?_, lineAt_blankSpans _ t⟩
  · rw [covered_iff, Bool.not_eq_true] at hi
    simp [getElem?_blankSpans, hi]
  · simp [getElem?_blankSpans, hb]
  · rw [covered_iff] at hi
    simp [getElem?_blankSpans, hb, hi, hne]

theorem spans_nodup (t : Bytes) : ((ofText t).spans.map Prod.fst).Nodup := by
  rw [names_spans]
  exact (List.filter_sublist.map _).nodup (entries_nodup t)

/-- **Blanking out all bodies** of a text leaves the rest of it, whatever the order of the bodies, of which
each has one name. -/
theorem outside_blanked {t : Bytes} {spans : List (String × Span)} (h : spans.Perm (ofText t).spans) :
    (spans.map Prod.fst).Nodup ∧ blankSpans spans t = (ofText t).outside t ∧
      (ofText t).Blanked t (blankSpans spans t) := by
  rw [blankSpans_perm h t]
  exact ⟨((h.map Prod.fst).nodup_iff).mpr (spans_nodup t), rfl, blanked_blankSpans _ t⟩

/-- A function in another one: the inner body may be blanked out before the outer one or after it. -/
theorem outside_blanked_nested :
    let t := Bytes.ofString "function a() \x7b\n function b() \x7b x \x7d\n\x7d\ny"
    let a := ("a", (⟨0, 13, 35, false⟩ : Span))
    let b := ("b", (⟨16, 29, 33, false⟩ : Span))
    (ofText t).spans = [a, b] ∧ [b, a].Perm (ofText t).spans ∧ (ofText t).Blanked t (blankSpans [b, a] t) ∧
      blankSpans [b, a] t = Bytes.ofString "function a()  \n                   \n \ny" := by
  intro t a b
  have hspans : (ofText t).spans = [a, b] := by decide
  have hperm : [b, a].Perm (ofText t).spans := by
    rw [hspans]
    exact List.Perm.swap a b []
  exact ⟨hspans, hperm, (outside_blanked hperm).2.2, by decide⟩

end ScriptSplit.Script.Outline
