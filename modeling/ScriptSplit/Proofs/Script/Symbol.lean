import Mathlib
import ScriptSplit.Proofs.Script.Header
import ScriptSplit.Script.Symbol

/-!
# Symbols as whole words

A symbol is looked for at every place of a text, and the first place with clean ends decides. So a symbol
that occurs inside of a longer word is still found if it occurs on its own further on.

* `firstPlace_isSome_iff`: there is a first place exactly if there is a place.
* `StandsAlone`: a symbol at an offset, told by the bytes around it; `symbolAt_iff`: the test at one place.
* **`foundSymbols_exact`**: the symbols that are found are those that stand alone somewhere.
-/

namespace ScriptSplit.Script

variable {symbol t r : Bytes} {i : Nat}

theorem firstPlace_isSome_iff {test : Option UInt8 → Bytes → Bool} : (firstPlace test t).isSome = true ↔
    ∃ i, i ≤ t.length ∧ test (t.take i).getLast? (t.drop i) = true := by
  constructor
  · intro h
    obtain ⟨i, hi⟩ := Option.isSome_iff_exists.mp h
    exact ⟨i, firstPlace_eq_some hi⟩
  · rintro ⟨i, hle, htest⟩
    exact firstPlace_isSome htest hle

/-- The symbol stands at offset `i`. If it begins with a word byte, no word byte stands before it, and if it
ends with a word byte, none stands after it. -/
structure StandsAlone (symbol t : Bytes) (i : Nat) : Prop where
  le : i ≤ t.length
  here : symbol <+: t.drop i
  before : ∀ b, symbol.head? = some b → isWordByte b = true →
    ∀ c, 0 < i → t[i - 1]? = some c → isWordByte c = false
  after : ∀ b, symbol.getLast? = some b → isWordByte b = true →
    ∀ c, t[i + symbol.length]? = some c → isWordByte c = false

/-- Of two neighbours that may be missing, not both are word bytes. -/
theorem not_both_words {o o' : Option UInt8} : (!(o.any isWordByte && o'.any isWordByte)) = true ↔
    ∀ b, o = some b → isWordByte b = true → ∀ c, o' = some c → isWordByte c = false := by
  cases o with
  | none => simp
  | some b =>
    cases o' with
    | none => simp
    | some c => cases hb : isWordByte b <;> simp [hb]

theorem symbolAt_append (before : Option UInt8) : symbolAt symbol before (symbol ++ r) = true ↔
    (!(symbol.head?.any isWordByte && before.any isWordByte)) = true ∧
      (!(symbol.getLast?.any isWordByte && r.head?.any isWordByte)) = true := by
  rw [symbolAt, after?_append]
  exact Bool.and_eq_true_iff

theorem getLast?_take_eq_some (hi : i ≤ t.length) {c : UInt8} :
    (t.take i).getLast? = some c ↔ 0 < i ∧ t[i - 1]? = some c := by
  obtain rfl | hpos := Nat.eq_zero_or_pos i
  · simp
  · rw [getLast?_take hpos hi]
    simp [hpos]

/-- The test at one place looks at the bytes beside the symbol. -/
theorem symbolAt_iff (hi : i ≤ t.length) :
    symbolAt symbol (t.take i).getLast? (t.drop i) = true ↔ StandsAlone symbol t i := by
  have hends : ∀ r, t.drop i = symbol ++ r →
      (symbolAt symbol (t.take i).getLast? (t.drop i) = true ↔ StandsAlone symbol t i) := by
    intro r hr
    have hnext : r.head? = t[i + symbol.length]? := by
      rw [← List.head?_drop, ← List.drop_drop, hr, List.drop_left]
    rw [hr, symbolAt_append, not_both_words, not_both_words, hnext]
    constructor
    · rintro ⟨hbefore, hafter⟩
      exact ⟨hi, ⟨r, hr.symm⟩, fun b hb hword c hpos hc =>
        hbefore b hb hword c ((getLast?_take_eq_some hi).mpr ⟨hpos, hc⟩), hafter⟩
    · intro h
      refine ⟨fun b hb hword c hc => ?_, h.after⟩
      obtain ⟨hpos, hc⟩ := (getLast?_take_eq_some hi).mp hc
      exact h.before b hb hword c hpos hc
  constructor
  · intro h
    have hsome := h
    unfold symbolAt at hsome
    split at hsome
    · next r hr => exact (hends r (after?_eq_some hr)).mp h
    · cases hsome
  · intro h
    obtain ⟨r, hr⟩ := h.here
    exact (hends r hr.symm).mpr h

theorem occursAsWord_iff (symbol t : Bytes) : occursAsWord symbol t = true ↔ ∃ i, StandsAlone symbol t i := by
  rw [occursAsWord, firstPlace_isSome_iff]
  constructor
  · rintro ⟨i, hi, htest⟩
    exact ⟨i, (symbolAt_iff hi).mp htest⟩
  · rintro ⟨i, h⟩
    exact ⟨i, h.le, (symbolAt_iff h.le).mpr h⟩

/-- The empty symbol has no ends, so it stands everywhere. -/
theorem standsAlone_nil (t : Bytes) : StandsAlone [] t 0 :=
  ⟨Nat.zero_le _, List.nil_prefix, nofun, nofun⟩

open Classical in
/-- **Whole words are found exactly.** The symbols that are found in a text are those of the list, in its
order, that stand alone at some offset; the empty symbol is one of them. One of the symbols occurs if some
symbol is found. -/
theorem foundSymbols_exact (symbols : List String) (text : String) :
    foundSymbols symbols (Bytes.ofString text) =
        symbols.filter (fun s => ∃ i, StandsAlone (Bytes.ofString s) (Bytes.ofString text) i) ∧
      ("" ∈ foundSymbols symbols (Bytes.ofString text) ↔ "" ∈ symbols) ∧
      (anySymbol symbols (Bytes.ofString text) = true ↔ foundSymbols symbols (Bytes.ofString text) ≠ []) := by
  refine ⟨?_, ?_, ?_⟩
  · refine List.filter_congr fun s _ => ?_
    rw [Bool.eq_iff_iff, occursAsWord_iff, decide_eq_true_eq]
  · rw [foundSymbols, List.mem_filter, occursAsWord_iff]
    exact and_iff_left ⟨0, standsAlone_nil _⟩
  · rw [foundSymbols, anySymbol, List.any_eq_true, Ne, List.filter_eq_nil_iff]
    simp

/-- Only the last of three occurrences has clean ends, and a letter beyond ASCII ends a word. -/
example : foundSymbols ["a.b", "", "né", "$x", "b"] (Bytes.ofString "xa.b a.bc nén a.b $xy") =
    ["a.b", "", "né", "b"] := by decide

end ScriptSplit.Script
