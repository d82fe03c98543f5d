import Mathlib
import ScriptSplit.Analysis.File
import ScriptSplit.Proofs.Script.Blanking
import ScriptSplit.Proofs.Script.CallSite
import ScriptSplit.Proofs.Script.Declaration

/-!
# Words that are cut out of a text

The names, calls, variables and ids of a report are cut out of the text of its file. All of them are runs of
ASCII bytes, so the string of a cut has the bytes of the cut. Variables and properties are cut out of the
text with its bodies blanked: they have no spaces, so they stand in the text itself.

* `Cut`: a string that stands in a text.
* `Pattern.Cuts`, `Pattern.ReadsWord`: what a match gives; `infix_of_mem_occurrences`: all that are listed.
* `infix_of_blankSpans`: what is left of a word in a blanked text.
* `cut_name`, `cut_callSites`, `cut_of_outside`, `cut_elementIds`: the cuts of a report.
-/

namespace ScriptSplit

open Script

variable {t w : Bytes} {x : String}

/-! ## Cuts -/

/-- The string stands in the text, byte for byte, and has ASCII characters only. -/
structure Cut (t : Bytes) (x : String) : Prop where
  stands : Bytes.ofString x <:+: t
  ascii : ∀ b ∈ Bytes.ofString x, b.toNat < 128

theorem cut_ascii (hw : w <:+: t) (hascii : ∀ b ∈ w, b.toNat < 128) : Cut t (Bytes.ascii w) := by
  have hbytes := Bytes.ofString_ascii hascii
  exact ⟨by rwa [hbytes], by rwa [hbytes]⟩

namespace Script.Pattern

/-- A match gives bytes that stand in the text, all of which pass the test. -/
def Cuts (p : Pattern Bytes) (test : UInt8 → Bool) : Prop :=
  ∀ before t w rest, p before t = some (w, rest) → w <:+: t ∧ ∀ b ∈ w, test b = true

/-- A match reads a word somewhere and goes up to its end. -/
def ReadsWord (p : Pattern Bytes) : Prop :=
  ∀ before t w rest, p before t = some (w, rest) → ∃ r, r <:+ t ∧ word? r = some (w, rest)

variable {p : Pattern Bytes}

theorem ReadsWord.takes (hp : p.ReadsWord) : p.Takes := by
  intro before t w rest h
  obtain ⟨r, hr, hword⟩ := hp before t w rest h
  obtain ⟨hrest, hlt⟩ := word?_suffix hword
  exact ⟨hrest.trans hr, hlt.trans_le hr.length_le⟩

theorem ReadsWord.cuts (hp : p.ReadsWord) : p.Cuts isWordByte := by
  intro before t w rest h
  obtain ⟨r, hr, hword⟩ := hp before t w rest h
  obtain ⟨hisWord, rfl, -⟩ := word?_eq_some_iff.mp hword
  exact ⟨(List.prefix_append w rest).isInfix.trans hr.isInfix, hisWord.2⟩

end Script.Pattern

theorem infix_of_mem_occurrences {p : Pattern Bytes} {test : UInt8 → Bool} (htakes : p.Takes) (hcuts : p.Cuts test)
    {m : Nat × Bytes} (hm : m ∈ occurrences p t) : m.2 <:+: t ∧ ∀ b ∈ m.2, test b = true := by
  obtain ⟨-, stop, hmatch⟩ := (occurrences_scan htakes t).exists_match hm
  obtain ⟨hstands, htest⟩ := hcuts _ _ _ _ hmatch.at_start
  exact ⟨hstands.trans (List.drop_suffix _ _).isInfix, htest⟩

/-! ## The patterns of a file as a whole -/

section Forms

variable {before : Option UInt8} {r rest : Bytes}

theorem readsWord_windowForm : windowForm.ReadsWord := by
  intro before t w rest h
  unfold windowForm at h
  split_ifs at h
  obtain ⟨r, hkeyword, hword⟩ := Option.bind_eq_some_iff.mp h
  exact ⟨r, keyword?_suffix hkeyword, hword⟩

theorem readsWord_variableForm : variableForm.ReadsWord := by
  intro before t w rest h
  unfold variableForm at h
  split_ifs at h
  obtain ⟨r', hbinder, h⟩ := Option.bind_eq_some_iff.mp h
  obtain ⟨r, hblanks, hword⟩ := Option.bind_eq_some_iff.mp h
  obtain ⟨k, -, rfl⟩ := binder?_eq_some hbinder
  obtain ⟨s, -, -, rfl⟩ := blanks1_eq_some hblanks
  exact ⟨r, (List.suffix_append s r).trans (List.suffix_append _ _), hword⟩

theorem idQuote?_suffix (h : idQuote? t = some r) : r <:+ t ∧ r.length < t.length := by
  cases t with
  | nil => cases h
  | cons b t =>
    rw [idQuote?] at h
    split_ifs at h
    cases h
    exact ⟨List.suffix_cons b _, Nat.lt_succ_self _⟩

theorem elementForm_eq_some (h : elementForm before t = some (w, rest)) :
    ∃ r, r <:+ t ∧ r.length < t.length ∧ w = r.takeWhile isIdByte ∧ rest <:+ r := by
  obtain ⟨r₁, hkeyword, h⟩ := Option.bind_eq_some_iff.mp h
  obtain ⟨r₂, hquote, h⟩ := Option.bind_eq_some_iff.mp h
  dsimp only at h
  split_ifs at h
  obtain ⟨r₃, hclose, h⟩ := Option.bind_eq_some_iff.mp h
  obtain ⟨r₄, hparen, h⟩ := Option.bind_eq_some_iff.mp h
  cases h
  obtain ⟨hsuffix, hlt⟩ := idQuote?_suffix hquote
  have hfront : blanks r₁ <:+ t := (blanks_suffix _).trans (keyword?_suffix hkeyword)
  refine ⟨r₂, hsuffix.trans hfront, hlt.trans_le hfront.length_le, rfl, ?_⟩
  calc rest <:+ blanks r₃ := byte?_suffix hparen
    _ <:+ r₃ := blanks_suffix _
    _ <:+ r₂.dropWhile isIdByte := (idQuote?_suffix hclose).1
    _ <:+ r₂ := List.dropWhile_suffix _

theorem takes_elementForm : elementForm.Takes := by
  intro before t w rest h
  obtain ⟨r, hr, hlt, -, hrest⟩ := elementForm_eq_some h
  exact ⟨hrest.trans hr, hrest.length_le.trans_lt hlt⟩

theorem cuts_elementForm : elementForm.Cuts isIdByte := by
  intro before t w rest h
  obtain ⟨r, hr, -, rfl, -⟩ := elementForm_eq_some h
  exact ⟨(List.takeWhile_prefix isIdByte).isInfix.trans hr.isInfix, fun b hb => List.mem_takeWhile_imp hb⟩

end Forms

/-! ## Words outside of bodies -/

/-- What stands in a blanked text without a space stands in the text. -/
theorem infix_of_blankSpans {spans : List (String × Span)} (hw : w <:+: Outline.blankSpans spans t)
    (hspace : ∀ b ∈ w, b ≠ 0x20) : w <:+: t := by
  obtain ⟨u, v, hsplit⟩ := hw
  have hkept : (t.drop u.length).take w.length = w := by
    apply List.ext_getElem?
    intro k
    rw [List.getElem?_take]
    split_ifs with hk
    · have hbyte : (Outline.blankSpans spans t)[u.length + k]? = some w[k] := by
        rw [← hsplit, List.append_assoc, List.getElem?_append_right (Nat.le_add_right _ _), Nat.add_sub_cancel_left,
          List.getElem?_append_left hk, List.getElem?_eq_getElem hk]
      rw [Outline.getElem?_blankSpans, Option.map_eq_some_iff] at hbyte
      obtain ⟨b, hb, hblank⟩ := hbyte
      split_ifs at hblank
      · exact absurd hblank.symm (hspace _ (List.getElem_mem hk))
      · rw [List.getElem?_drop, hb, hblank, List.getElem?_eq_getElem hk]
    · rw [List.getElem?_eq_none_iff.mpr (Nat.not_lt.mp hk)]
  rw [← hkept]
  exact (List.take_prefix _ _).isInfix.trans (List.drop_suffix _ _).isInfix

/-- A word outside of bodies. -/
theorem cut_of_outside {p : Pattern Bytes} (hp : p.ReadsWord) {m : Nat × Bytes}
    (hm : m ∈ occurrences p ((Outline.ofText t).outside t)) : Cut t (Bytes.ascii m.2) := by
  obtain ⟨hstands, hword⟩ := infix_of_mem_occurrences hp.takes hp.cuts hm
  refine cut_ascii (infix_of_blankSpans hstands fun b hb => ?_) fun b hb => toNat_lt_of_isWordByte (hword b hb)
  rintro rfl
  exact absurd (hword _ hb) (by decide)

theorem cut_elementIds (hx : x ∈ elementIds t) : Cut t x := by
  rw [elementIds, mem_sortedSet] at hx
  obtain ⟨m, hm, rfl⟩ := List.mem_map.mp hx
  obtain ⟨hstands, hid⟩ := infix_of_mem_occurrences takes_elementForm cuts_elementForm hm
  refine cut_ascii hstands fun b hb => ?_
  obtain hword | hhyphen := Bool.or_eq_true_iff.mp (hid b hb)
  · exact toNat_lt_of_isWordByte hword
  · rw [beq_iff_eq.mp hhyphen]
    decide

/-! ## Names and calls -/

theorem cut_name {d : Declaration} (hd : d ∈ extract t) : Cut t d.name := by
  obtain ⟨i, -, hrun⟩ := (declared_extract hd).run
  obtain ⟨u, r, ht, -⟩ := hrun.split
  exact ⟨⟨u, r, ht.symm⟩, fun b hb => toNat_lt_of_isWordByte (hrun.word.2 b hb)⟩

theorem cut_callSites {span : Span} (hx : x ∈ callSites (span.body t)) : Cut t x := by
  obtain ⟨hword, u, s, v, hbody, -⟩ := called_of_mem_callSites hx
  have hstands : Bytes.ofString x <:+: span.body t := ⟨u, s ++ openParen :: v, by rw [hbody, List.append_assoc]⟩
  refine ⟨hstands.trans ?_, fun b hb => toNat_lt_of_isWordByte (hword.2 b hb)⟩
  exact (List.drop_suffix _ _).isInfix.trans (List.take_prefix _ _).isInfix

end ScriptSplit
