import Mathlib
import ScriptSplit.Proofs.Script.Reading
import ScriptSplit.Proofs.Text.Sorted

/-!
# Names in call position

The call sites of a body are found in one pass that skips over each match. The test for a single name
looks at every place. Both find the same: a call starts with a whole word, and inside a match there is no
other place at which a word with its parenthesis starts.

* `Called`: the test for a single name.
* `callForm_iff`, `Match.isWordByte_iff`: a match is a word, blanks and a parenthesis.
* `noWord_of_mem`: a match starts with a whole word; `mem_of_called`: every call is matched.
* **`mem_callSites_iff`**: the pass finds the names that pass the test.
-/

namespace ScriptSplit.Script

/-- The name occurs with no word byte before it, and an opening parenthesis follows it after blanks. -/
def Called (body name : Bytes) : Prop :=
  ∃ u s v, body = u ++ (name ++ (s ++ openParen :: v)) ∧ NoWord u.getLast? ∧ IsBlank s

variable {body name rest : Bytes} {i stop : Nat}

/-- A call at a place of the text. -/
theorem callForm_iff {before : Option UInt8} {t : Bytes} : callForm before t = some (name, rest) ↔
    ∃ s, IsWord name ∧ IsBlank s ∧ t = name ++ (s ++ openParen :: rest) := by
  rw [callForm_eq_some_iff]
  constructor
  · rintro ⟨r, hword, hparen⟩
    obtain ⟨hname, rfl, -⟩ := word?_eq_some_iff.mp hword
    obtain ⟨s, hs, rfl⟩ := (byte?_blanks_iff (by decide)).mp hparen
    exact ⟨s, hname, hs, rfl⟩
  · rintro ⟨s, hname, hs, rfl⟩
    exact ⟨s ++ openParen :: rest, word?_eq_some_iff.mpr ⟨hname, rfl, noWord_openParen hs rest⟩,
      (byte?_blanks_iff (by decide)).mpr ⟨s, hs, rfl⟩⟩

/-- The bytes of a match: a word, blanks and a parenthesis. -/
theorem Match.call (h : Match callForm body i name stop) :
    ∃ s, IsWord name ∧ IsBlank s ∧ body.drop i = name ++ (s ++ openParen :: body.drop stop) ∧
      stop = i + (name.length + (s.length + 1)) := by
  obtain ⟨s, hname, hs, hdrop⟩ := callForm_iff.mp h.at_start
  refine ⟨s, hname, hs, hdrop, ?_⟩
  have hlength := congrArg List.length hdrop
  simp only [List.length_append, List.length_cons, List.length_drop] at hlength
  have := h.lt
  have := h.le
  omega

/-- The word bytes of a match are those of its name. -/
theorem Match.isWordByte_iff (h : Match callForm body i name stop) {j : Nat} (hij : i ≤ j) (hj : j < stop) :
    ∃ b, body[j]? = some b ∧ (isWordByte b = true ↔ j < i + name.length) := by
  obtain ⟨s, hname, hs, hdrop, hstop⟩ := h.call
  obtain ⟨k, rfl⟩ := Nat.exists_eq_add_of_le hij
  have hbyte : body[i + k]? = (name ++ (s ++ openParen :: body.drop stop))[k]? := by
    rw [← hdrop, List.getElem?_drop]
  rw [hbyte]
  by_cases hk : k < name.length
  · refine ⟨name[k], by rw [List.getElem?_append_left hk, List.getElem?_eq_getElem hk], ?_⟩
    exact iff_of_true (hname.2 _ (List.getElem_mem hk)) (by omega)
  · obtain ⟨l, rfl⟩ := Nat.exists_eq_add_of_le (Nat.not_lt.mp hk)
    rw [List.getElem?_append_right (by omega), Nat.add_sub_cancel_left]
    by_cases hl : l < s.length
    · refine ⟨s[l], by rw [List.getElem?_append_left hl, List.getElem?_eq_getElem hl], ?_⟩
      rw [not_isWordByte_of_isBlankByte (hs _ (List.getElem_mem hl))]
      exact iff_of_false (by simp) (by omega)
    · refine ⟨openParen, ?_, iff_of_false (by decide) (by omega)⟩
      rw [List.getElem?_append_right (by omega), show l - s.length = 0 by omega]
      rfl

/-- No word goes on across the end of a match. -/
theorem Match.noWord_stop (h : Match callForm body i name stop) : NoWord (body.take stop).getLast? := by
  obtain ⟨s, -, -, -, hstop⟩ := h.call
  have hlt := h.lt
  obtain ⟨b, hb, hword⟩ := h.isWordByte_iff (j := stop - 1) (by omega) (by omega)
  intro c hc
  rw [getLast?_take (by omega) h.le, hb] at hc
  cases hc
  rw [← Bool.not_eq_true, hword]
  omega

/-! ## Matches and calls -/

/-- **A match starts with a whole word**: one byte earlier there would be a match too. -/
theorem noWord_of_mem (h : (i, name) ∈ occurrences callForm body) : NoWord (body.take i).getLast? := by
  have hscan := occurrences_scan takes_callForm body
  obtain ⟨-, stop, hmatch⟩ := hscan.exists_match h
  obtain rfl | ⟨j, other, hends⟩ | ⟨hpos, hnone⟩ := hscan.start_cases h
  · nofun
  · exact hends.noWord_stop
  · intro b hb
    by_contra hword
    obtain ⟨s, hname, hs, hdrop, -⟩ := hmatch.call
    have hle : i ≤ body.length := hmatch.lt.le.trans hmatch.le
    have hlonger : body.drop (i - 1) = (b :: name) ++ (s ++ openParen :: body.drop stop) := by
      rw [getLast?_take hpos hle] at hb
      rw [List.cons_append, ← hdrop, List.drop_eq_getElem_cons (by omega)]
      congr 1
      · exact Option.some.inj ((List.getElem?_eq_getElem _).symm.trans hb)
      · rw [Nat.sub_add_cancel hpos]
    have hsome : callForm.at? body (i - 1) = some (b :: name, body.drop stop) := by
      refine callForm_iff.mpr ⟨s, ⟨List.cons_ne_nil _ _, ?_⟩, hs, hlonger⟩
      rintro c (_ | ⟨_, hc⟩)
      · simpa using hword
      · exact hname.2 c hc
    rw [hsome] at hnone
    cases hnone

/-- **Every call is matched**: no match that starts earlier reaches over the start of a whole word. -/
theorem mem_of_called (hname : IsWord name) (h : Called body name) :
    ∃ i, (i, name) ∈ occurrences callForm body := by
  obtain ⟨u, s, v, rfl, hu, hs⟩ := h
  set body := u ++ (name ++ (s ++ openParen :: v)) with hbody
  have hdrop : body.drop u.length = name ++ (s ++ openParen :: v) := List.drop_left
  have htake : body.take u.length = u := List.take_left
  have hat : callForm.at? body u.length = some (name, v) := callForm_iff.mpr ⟨s, hname, hs, hdrop⟩
  obtain ⟨⟨j, w⟩, hmem, stop, hmatch, hle, hlt⟩ :=
    (occurrences_scan takes_callForm body).covers (Nat.zero_le u.length) (by rw [hat]; rfl)
  obtain heq | hlt' := hle.eq_or_lt
  · dsimp only at heq hmatch
    have hsame := hmatch.at_start
    rw [heq, hat] at hsame
    obtain rfl : name = w := congrArg Prod.fst (Option.some.inj hsame)
    exact ⟨j, hmem⟩
  · -- the byte before the word and its first byte tell whether the word of the match goes up to here
    exfalso
    have hle' : u.length ≤ body.length := hlt.le.trans hmatch.le
    obtain ⟨b, hb, hbword⟩ := hmatch.isWordByte_iff (j := u.length - 1) (by omega) (by omega)
    obtain ⟨c, hc, hcword⟩ := hmatch.isWordByte_iff (j := u.length) hle hlt
    have hbefore : isWordByte b = false := by
      refine hu b ?_
      rw [← hb, ← getLast?_take (by omega) hle', htake]
    have hfirst : isWordByte c = true := by
      obtain ⟨a, w', rfl⟩ := List.exists_cons_of_ne_nil hname.1
      rw [← List.head?_drop, hdrop] at hc
      cases hc
      exact hname.2 _ List.mem_cons_self
    have := hcword.mp hfirst
    rw [hbword.mpr (by omega)] at hbefore
    cases hbefore

/-- What the pass finds is a word that the body calls. -/
theorem called_of_mem_callSites {body : Bytes} {name : String} (h : name ∈ callSites body) :
    IsWord (Bytes.ofString name) ∧ Called body (Bytes.ofString name) := by
  rw [callSites, mem_sortedSet] at h
  obtain ⟨⟨i, w⟩, hmem, rfl⟩ := List.mem_map.mp h
  obtain ⟨-, stop, hmatch⟩ := (occurrences_scan takes_callForm body).exists_match hmem
  obtain ⟨s, hw, hs, hdrop, -⟩ := hmatch.call
  rw [ofString_ascii hw.2]
  refine ⟨hw, body.take i, s, body.drop stop, ?_, noWord_of_mem hmem, hs⟩
  dsimp only at hdrop
  rw [← hdrop, List.take_append_drop]

/-- **The pass finds the calls**: a string is a call site of a body exactly if it is a word that the body
calls somewhere. -/
theorem mem_callSites_iff (body : Bytes) (name : String) : name ∈ callSites body ↔
    IsWord (Bytes.ofString name) ∧ Called body (Bytes.ofString name) := by
  constructor
  · exact called_of_mem_callSites
  · rintro ⟨hname, hcalled⟩
    rw [callSites, mem_sortedSet]
    obtain ⟨i, hmem⟩ := mem_of_called hname hcalled
    exact List.mem_map.mpr ⟨_, hmem, ascii_ofString hname.2⟩

/-- Calls in the arguments of a call, and one behind blanks and a newline. -/
example : callSites (Bytes.ofString "f(g(1), x.h \n (2)) if(k)") = ["f", "g", "h", "if"] := by decide

end ScriptSplit.Script
