import Mathlib
import ScriptSplit.Script.Region

/-!
# Regions and Dyck words

The places of a text that a scan reaches outside strings are described without the scanner: a scan
steps over a byte that is no quote, and jumps over a string from its opening quote to the place after
its closing one. The braces at these places are read as Dyck steps, and a region is a prime Dyck
word.

* `Outside`, **`outside_iff_not_inside`**: the places outside strings.
* **`mem_unquoted`**, `unquoted_ordered`: what the scanner lists, and in which order.
* `PrimeDyck`, **`closingBrace?_eq_some_iff`**: the depth count finds the end of the first prime word.
* **`findRegionEnd_exact`**: the region is the prime word that starts at the first brace.
-/

namespace ScriptSplit.Script

/-! ## Places outside strings -/

/-- The byte at `j` ends a string that opens at `i`: it is the same quote, and no backslash stands
directly before it. -/
structure Shuts (t : Bytes) (i j : Nat) : Prop where
  lt : i < j
  same : t[j]? = t[i]?
  bare : t[j - 1]? ≠ some backslash

/-- A quote stands at `i`. -/
def QuoteAt (t : Bytes) (i : Nat) : Prop := ∃ q, t[i]? = some q ∧ isQuote q = true

/-- A string that opens at `i` ends at `j`, the first place that can end it. -/
structure IsString (t : Bytes) (i j : Nat) : Prop where
  opens : QuoteAt t i
  shuts : Shuts t i j
  first : ∀ k < j, ¬ Shuts t i k

/-- A scan that begins at `i` outside strings comes to the place `k` outside strings. -/
inductive Outside (t : Bytes) : (i k : Nat) → Prop
  | here (i : Nat) : Outside t i i
  | byte {i k : Nat} {b : UInt8} (at_i : t[i]? = some b) (plain : isQuote b = false)
      (onward : Outside t (i + 1) k) : Outside t i k
  | string {i j k : Nat} (whole : IsString t i j) (onward : Outside t (j + 1) k) : Outside t i k

/-- The place `k` lies in a string: a quote outside strings opens one before `k`, and no place before
`k` ends it. -/
def Inside (t : Bytes) (i k : Nat) : Prop :=
  ∃ o < k, Outside t i o ∧ QuoteAt t o ∧ ∀ m < k, ¬ Shuts t o m

variable {t : Bytes} {i j k : Nat} {b : UInt8}

theorem Outside.le (h : Outside t i k) : i ≤ k := by
  induction h with
  | here => exact le_rfl
  | byte _ _ _ ih => exact Nat.le_of_succ_le ih
  | string whole _ ih => exact whole.shuts.lt.le.trans (Nat.le_of_succ_le ih)

theorem IsString.lt_length (h : IsString t i j) : j < t.length := by
  obtain ⟨q, hq, -⟩ := h.opens
  exact (List.getElem?_eq_some_iff.mp (h.shuts.same.trans hq)).1

theorem IsString.unique {j' : Nat} (h : IsString t i j) (h' : IsString t i j') : j = j' := by
  rcases lt_trichotomy j j' with hlt | rfl | hlt
  · exact absurd h.shuts (h'.first j hlt)
  · rfl
  · exact absurd h'.shuts (h.first j' hlt)

theorem not_quoteAt_of_plain (hb : t[i]? = some b) (hq : isQuote b = false) : ¬ QuoteAt t i := by
  rintro ⟨q, hq', hquote⟩
  rw [hb] at hq'
  cases hq'
  simp [hq] at hquote

/-- What a scan can do at a place of the text. -/
theorem place_cases (h : i < t.length) :
    (∃ b, t[i]? = some b ∧ isQuote b = false) ∨ (∃ j, IsString t i j) ∨
      QuoteAt t i ∧ ∀ j, ¬ Shuts t i j := by
  classical
  cases hq : isQuote t[i] with
  | false => exact .inl ⟨t[i], List.getElem?_eq_getElem h, hq⟩
  | true =>
    have hquote : QuoteAt t i := ⟨t[i], List.getElem?_eq_getElem h, hq⟩
    by_cases hshut : ∃ j, Shuts t i j
    · exact .inr (.inl ⟨Nat.find hshut, hquote, Nat.find_spec hshut, fun _ => Nat.find_min hshut⟩)
    · exact .inr (.inr ⟨hquote, not_exists.mp hshut⟩)

theorem Outside.not_inside (h : Outside t i k) : ¬ Inside t i k := by
  induction h with
  | here i =>
    rintro ⟨o, ho, hout, -, -⟩
    exact absurd hout.le (Nat.not_le.mpr ho)
  | @byte i k b hb hq _ ih =>
    rintro ⟨o, ho, hout, hquote, hopen⟩
    cases hout with
    | here => exact not_quoteAt_of_plain hb hq hquote
    | byte _ _ onward => exact ih ⟨o, ho, onward, hquote, hopen⟩
    | string whole _ => exact not_quoteAt_of_plain hb hq whole.opens
  | @string i j k whole hout' ih =>
    rintro ⟨o, ho, hout, hquote, hopen⟩
    cases hout with
    | here => exact hopen j hout'.le whole.shuts
    | byte hb hq _ => exact not_quoteAt_of_plain hb hq whole.opens
    | string whole' onward =>
      obtain rfl := whole.unique whole'
      exact ih ⟨o, ho, onward, hquote, hopen⟩

/-- **A place of the text lies outside strings or inside one, and not both.** -/
theorem outside_iff_not_inside (h : i ≤ k) (hk : k ≤ t.length) :
    Outside t i k ↔ ¬ Inside t i k := by
  refine ⟨Outside.not_inside, fun hin => ?_⟩
  -- By induction on what is left of the text up to `k`.
  induction hn : k - i using Nat.strong_induction_on generalizing i with
  | _ n ih =>
    obtain rfl | hlt := h.eq_or_lt
    · exact .here i
    rcases place_cases (hlt.trans_le hk) with ⟨b, hb, hq⟩ | ⟨j, hj⟩ | ⟨hquote, hnone⟩
    · refine .byte hb hq (ih (k - (i + 1)) (by omega) hlt ?_ rfl)
      rintro ⟨o, ho, hout, hopen⟩
      exact hin ⟨o, ho, .byte hb hq hout, hopen⟩
    · have hle : j + 1 ≤ k := by
        by_contra hgt
        exact hin ⟨i, hlt, .here i, hj.opens, fun m hm => hj.first m (by omega)⟩
      have := hj.shuts.lt
      refine .string hj (ih (k - (j + 1)) (by omega) hle ?_ rfl)
      rintro ⟨o, ho, hout, hopen⟩
      exact hin ⟨o, ho, .string hj hout, hopen⟩
    · exact absurd ⟨i, hlt, .here i, hquote, fun m _ => hnone m⟩ hin

/-! ## What the scanner lists -/

theorem unquotedFrom_none_before (p p' : UInt8) (o : Nat) (l : Bytes) :
    unquotedFrom none p o l = unquotedFrom none p' o l := by
  cases l <;> rfl

theorem unquoted_end (h : t.length ≤ i) : unquoted t i = [] := by
  simp [unquoted, List.drop_of_length_le h, unquotedFrom]

theorem unquoted_byte (hb : t[i]? = some b) (hq : isQuote b = false) :
    unquoted t i = (i, b) :: unquoted t (i + 1) := by
  obtain ⟨hi, rfl⟩ := List.getElem?_eq_some_iff.mp hb
  rw [unquoted, List.drop_eq_getElem_cons hi]
  simp [unquotedFrom, hq, unquoted, unquotedFrom_none_before t[i] 0]

theorem unquoted_quote {q : UInt8} (hq : t[i]? = some q) (hquote : isQuote q = true) :
    unquoted t i = unquotedFrom (some q) q (i + 1) (t.drop (i + 1)) := by
  obtain ⟨hi, rfl⟩ := List.getElem?_eq_some_iff.mp hq
  rw [unquoted, List.drop_eq_getElem_cons hi]
  simp [unquotedFrom, hquote]

/-- Inside a string the scanner goes on to the next place, unless that place ends the string. -/
theorem unquotedFrom_string {q p : UInt8} (hq : t[i]? = some q) (hik : i < k)
    (hp : t[k - 1]? = some p) (hk : k < t.length) :
    (Shuts t i k → unquotedFrom (some q) p k (t.drop k) = unquoted t (k + 1)) ∧
      (¬ Shuts t i k →
        unquotedFrom (some q) p k (t.drop k) = unquotedFrom (some q) t[k] (k + 1) (t.drop (k + 1))) := by
  have hshuts : Shuts t i k ↔ (t[k] == q && p != backslash) = true := by
    have hsame : t[k]? = t[i]? ↔ t[k] = q := by rw [hq, List.getElem?_eq_getElem hk, Option.some_inj]
    have hbare : t[k - 1]? ≠ some backslash ↔ p ≠ backslash := by rw [hp, Ne, Option.some_inj]
    rw [Bool.and_eq_true, beq_iff_eq, bne_iff_ne, ← hsame, ← hbare]
    exact ⟨fun h => ⟨h.same, h.bare⟩, fun h => ⟨hik, h.1, h.2⟩⟩
  rw [List.drop_eq_getElem_cons hk, hshuts]
  constructor
  · intro h
    simp only [unquotedFrom, h, if_true, unquoted]
    exact unquotedFrom_none_before ..
  · intro h
    rw [unquotedFrom, if_neg h]

/-- The scanner takes up its list after the end of a string. -/
theorem unquoted_string (h : IsString t i j) : unquoted t i = unquoted t (j + 1) := by
  obtain ⟨q, hq, hquote⟩ := h.opens
  -- At every place up to the closing quote the string is still open.
  have hopen : ∀ n k p, j - k = n → i < k → k ≤ j → t[k - 1]? = some p →
      unquotedFrom (some q) p k (t.drop k) = unquoted t (j + 1) := by
    intro n
    induction n with
    | zero =>
      intro k p hn hik hkj hp
      obtain rfl : k = j := by omega
      exact (unquotedFrom_string hq hik hp h.lt_length).1 h.shuts
    | succ n ih =>
      intro k p hn hik hkj hp
      have hk : k < t.length := hkj.trans_lt h.lt_length
      rw [(unquotedFrom_string hq hik hp hk).2 (h.first k (by omega))]
      exact ih (k + 1) t[k] (by omega) (by omega) (by omega) (List.getElem?_eq_getElem hk)
  rw [unquoted_quote hq hquote]
  exact hopen _ (i + 1) q rfl (Nat.lt_succ_self i) h.shuts.lt hq

/-- A string that nothing ends takes up the rest of the text. -/
theorem unquoted_open (h : QuoteAt t i) (hnone : ∀ j, ¬ Shuts t i j) : unquoted t i = [] := by
  obtain ⟨q, hq, hquote⟩ := h
  have hopen : ∀ n k p, t.length - k = n → i < k → t[k - 1]? = some p →
      unquotedFrom (some q) p k (t.drop k) = [] := by
    intro n
    induction n with
    | zero =>
      intro k p hn _ _
      rw [List.drop_of_length_le (by omega)]
      rfl
    | succ n ih =>
      intro k p hn hik hp
      have hk : k < t.length := by omega
      rw [(unquotedFrom_string hq hik hp hk).2 (hnone k)]
      exact ih (k + 1) t[k] (by omega) (by omega) (List.getElem?_eq_getElem hk)
  rw [unquoted_quote hq hquote]
  exact hopen _ (i + 1) q rfl (Nat.lt_succ_self i) hq

/-- To prove something of the scanner's list at every place, take the three things that a scan can do
at a place, and the end of the text. -/
theorem unquoted_induction {motive : Nat → Prop} (t : Bytes)
    (ends : ∀ i, t.length ≤ i → motive i)
    (byte : ∀ i b, t[i]? = some b → isQuote b = false → motive (i + 1) → motive i)
    (string : ∀ i j, IsString t i j → motive (j + 1) → motive i)
    (opened : ∀ i, QuoteAt t i → (∀ j, ¬ Shuts t i j) → motive i) (i : Nat) : motive i := by
  induction hn : t.length - i using Nat.strong_induction_on generalizing i with
  | _ n ih =>
    rcases Nat.lt_or_ge i t.length with hlt | hge
    · rcases place_cases hlt with ⟨b, hb, hq⟩ | ⟨j, hj⟩ | ⟨hquote, hnone⟩
      · exact byte i b hb hq (ih _ (by omega) (i + 1) rfl)
      · have := hj.shuts.lt
        exact string i j hj (ih _ (by omega) (j + 1) rfl)
      · exact opened i hquote hnone
    · exact ends i hge

/-- **The scanner lists the bytes outside strings, quotes apart.** -/
theorem mem_unquoted : (k, b) ∈ unquoted t i ↔ Outside t i k ∧ t[k]? = some b ∧ isQuote b = false := by
  induction i using unquoted_induction t with
  | ends i hi =>
    rw [unquoted_end hi]
    refine iff_of_false List.not_mem_nil ?_
    rintro ⟨hout, hb, -⟩
    exact absurd (hout.le.trans_lt (List.getElem?_eq_some_iff.mp hb).1) (Nat.not_lt.mpr hi)
  | byte i c hc hq ih =>
    rw [unquoted_byte hc hq, List.mem_cons, ih, Prod.mk.injEq]
    constructor
    · rintro (⟨rfl, rfl⟩ | ⟨hout, hb⟩)
      · exact ⟨.here _, hc, hq⟩
      · exact ⟨.byte hc hq hout, hb⟩
    · rintro ⟨hout, hb⟩
      cases hout with
      | here => exact .inl ⟨rfl, Option.some_inj.mp (hb.1.symm.trans hc)⟩
      | byte _ _ onward => exact .inr ⟨onward, hb⟩
      | string whole _ => exact absurd whole.opens (not_quoteAt_of_plain hc hq)
  | string i j hj ih =>
    rw [unquoted_string hj, ih]
    refine and_congr_left fun hb => ⟨.string hj, fun hout => ?_⟩
    cases hout with
    | here => exact absurd hj.opens (not_quoteAt_of_plain hb.1 hb.2)
    | byte hc hq _ => exact absurd hj.opens (not_quoteAt_of_plain hc hq)
    | string whole onward =>
      obtain rfl := hj.unique whole
      exact onward
  | opened i hquote hnone =>
    rw [unquoted_open hquote hnone]
    refine iff_of_false List.not_mem_nil ?_
    rintro ⟨hout, hb, hq⟩
    cases hout with
    | here => exact not_quoteAt_of_plain hb hq hquote
    | byte hc hq _ => exact not_quoteAt_of_plain hc hq hquote
    | string whole _ => exact hnone _ whole.shuts

/-- The scanner lists its bytes from left to right. -/
theorem unquoted_ordered (t : Bytes) (i : Nat) : (unquoted t i).Pairwise (·.1 < ·.1) := by
  induction i using unquoted_induction t with
  | ends i hi => simp [unquoted_end hi]
  | byte i b hb hq ih =>
    rw [unquoted_byte hb hq, List.pairwise_cons]
    exact ⟨fun p hp => (mem_unquoted.mp hp).1.le, ih⟩
  | string i j hj ih => rwa [unquoted_string hj]
  | opened i hquote hnone => simp [unquoted_open hquote hnone]

/-! ## Braces as Dyck steps -/

open DyckStep

/-- The Dyck step that a brace stands for. -/
def braceStep? (b : UInt8) : Option DyckStep :=
  if b = openBrace then some U else if b = closeBrace then some D else none

/-- The Dyck steps of a list of bytes with their offsets. -/
def steps (l : List (Nat × UInt8)) : List DyckStep := l.filterMap fun p => braceStep? p.2

/-- The list is a Dyck word. -/
def IsDyck (w : List DyckStep) : Prop := ∃ d : DyckWord, d.toList = w

/-- The list is a prime Dyck word: it is balanced, and no part in front of it is, the empty part and
the whole apart. -/
structure PrimeDyck (w : List DyckStep) : Prop where
  nonempty : w ≠ []
  balanced : IsDyck w
  prime : ∀ p, p <+: w → p ≠ [] → p ≠ w → ¬ IsDyck p

/-- Steps that begin at height `d` stay above zero, and one step down more ends at zero. -/
structure Descends (d : Nat) (w : List DyckStep) : Prop where
  above : ∀ p, p <+: w → p.count D < d + p.count U
  ends : w.count D + 1 = d + w.count U

variable {d : Nat} {w : List DyckStep}

theorem isDyck_iff : IsDyck w ↔ w.count U = w.count D ∧ ∀ p, p <+: w → p.count D ≤ p.count U := by
  constructor
  · rintro ⟨⟨l, heq, hle⟩, rfl⟩
    refine ⟨heq, fun p hp => ?_⟩
    rw [List.prefix_iff_eq_take.mp hp]
    exact hle _
  · rintro ⟨heq, hle⟩
    exact ⟨⟨w, heq, fun i => hle _ (List.take_prefix i w)⟩, rfl⟩

theorem descends_iff : Descends d w ↔
    (∀ p, p <+: w → p.count D < d + p.count U) ∧ w.count D + 1 = d + w.count U :=
  ⟨fun h => ⟨h.above, h.ends⟩, fun h => ⟨h.1, h.2⟩⟩

theorem forall_prefix_cons {P : List DyckStep → Prop} {s : DyckStep} :
    (∀ p, p <+: s :: w → P p) ↔ P [] ∧ ∀ p, p <+: w → P (s :: p) := by
  constructor
  · intro h
    exact ⟨h [] (List.nil_prefix), fun p hp => h _ (List.cons_prefix_cons.mpr ⟨rfl, hp⟩)⟩
  · rintro ⟨hnil, hcons⟩ p hp
    rcases List.prefix_cons_iff.mp hp with rfl | ⟨p', rfl, hp'⟩
    · exact hnil
    · exact hcons p' hp'

theorem count_up (w : List DyckStep) :
    (U :: w).count U = w.count U + 1 ∧ (U :: w).count D = w.count D := by simp

theorem count_down (w : List DyckStep) :
    (D :: w).count U = w.count U ∧ (D :: w).count D = w.count D + 1 := by simp

@[simp]
theorem descends_nil : Descends d [] ↔ d = 1 := by
  simp only [descends_iff, List.prefix_nil, forall_eq, List.count_nil]
  omega

theorem descends_up (hd : 0 < d) : Descends d (U :: w) ↔ Descends (d + 1) w := by
  simp only [descends_iff, forall_prefix_cons, List.count_nil, Nat.add_zero, hd, true_and, count_up,
    Nat.add_right_comm d 1, Nat.add_assoc]

theorem descends_down : Descends (d + 1) (D :: w) ↔ 0 < d ∧ Descends d w := by
  simp only [descends_iff, forall_prefix_cons, List.count_nil, Nat.add_zero, Nat.succ_pos, true_and,
    count_down, Nat.add_right_comm d 1, Nat.add_lt_add_iff_right, Nat.add_right_cancel_iff]
  constructor
  · rintro ⟨habove, hends⟩
    exact ⟨by simpa using habove [] List.nil_prefix, habove, hends⟩
  · rintro ⟨-, h⟩
    exact h

/-- A prime Dyck word is a step up, steps that stay above zero, and the step down to zero. -/
theorem primeDyck_iff_descends : PrimeDyck (U :: (w ++ [D])) ↔ Descends 1 w := by
  constructor
  · intro h
    obtain ⟨heq, hle⟩ := isDyck_iff.mp h.balanced
    refine ⟨fun p hp => ?_, ?_⟩
    · have hp' : U :: p <+: U :: (w ++ [D]) :=
        List.cons_prefix_cons.mpr ⟨rfl, hp.trans (List.prefix_append w [D])⟩
      have hshort : U :: p ≠ U :: (w ++ [D]) := by
        intro heq
        have hlen := congrArg List.length (List.cons.inj heq).2
        rw [List.length_append, List.length_singleton] at hlen
        have := hp.length_le
        omega
      have hcount : (U :: p).count U ≠ (U :: p).count D := fun hc =>
        h.prime _ hp' (List.cons_ne_nil _ _) hshort
          (isDyck_iff.mpr ⟨hc, fun r hr => hle r (hr.trans hp')⟩)
      have := hle _ hp'
      simp only [count_up] at this hcount
      omega
    · simp only [count_up, List.count_append, List.count_singleton_self,
        List.count_singleton, beq_iff_eq, reduceCtorEq, if_false] at heq
      omega
  · intro h
    have habove : ∀ p, p <+: U :: (w ++ [D]) → p ≠ [] → p ≠ U :: (w ++ [D]) → p.count D < p.count U := by
      intro p hp hnil hshort
      rcases List.prefix_cons_iff.mp hp with rfl | ⟨p', rfl, hp'⟩
      · exact absurd rfl hnil
      · rcases List.prefix_concat_iff.mp hp' with rfl | hp'
        · exact absurd rfl hshort
        · have := h.above p' hp'
          simp only [count_up]
          omega
    have hbal : (U :: (w ++ [D])).count U = (U :: (w ++ [D])).count D := by
      have := h.ends
      simp only [count_up, List.count_append, List.count_singleton_self,
        List.count_singleton, beq_iff_eq, reduceCtorEq, if_false]
      omega
    refine ⟨List.cons_ne_nil _ _, isDyck_iff.mpr ⟨hbal, fun p hp => ?_⟩, fun p hp hnil hshort hdyck => ?_⟩
    · by_cases hnil : p = []
      · simp [hnil]
      · by_cases hshort : p = U :: (w ++ [D])
        · rw [hshort, hbal]
        · exact (habove p hp hnil hshort).le
    · exact absurd (isDyck_iff.mp hdyck).1 (habove p hp hnil hshort).ne'

@[simp]
theorem steps_nil : steps [] = [] := rfl

@[simp]
theorem steps_open (i : Nat) (l : List (Nat × UInt8)) : steps ((i, openBrace) :: l) = U :: steps l := rfl

@[simp]
theorem steps_close (i : Nat) (l : List (Nat × UInt8)) : steps ((i, closeBrace) :: l) = D :: steps l := rfl

theorem steps_other (ho : b ≠ openBrace) (hc : b ≠ closeBrace) (l : List (Nat × UInt8)) :
    steps ((i, b) :: l) = steps l := by
  simp [steps, braceStep?, ho, hc]

/-- An item that splits a list is its head, or splits its tail. -/
theorem exists_split_cons_iff {α : Type} {a x : α} {l : List α} {P : List α → Prop} :
    (∃ pre post, a :: l = pre ++ x :: post ∧ P pre) ↔
      (a = x ∧ P []) ∨ ∃ pre post, l = pre ++ x :: post ∧ P (a :: pre) := by
  constructor
  · rintro ⟨_ | ⟨y, pre⟩, post, heq, hP⟩
    · exact .inl ⟨(List.cons.inj heq).1, hP⟩
    · obtain ⟨rfl, rfl⟩ := List.cons.inj heq
      exact .inr ⟨pre, post, rfl, hP⟩
  · rintro (⟨rfl, hP⟩ | ⟨pre, post, rfl, hP⟩)
    · exact ⟨[], l, rfl, hP⟩
    · exact ⟨a :: pre, post, rfl, hP⟩

/-- **The depth count ends at the brace before which the steps stay above zero.** -/
theorem closingBrace?_eq_some_iff {l : List (Nat × UInt8)} (hd : 0 < d) :
    closingBrace? d l = some j ↔
      ∃ pre post, l = pre ++ (j, closeBrace) :: post ∧ Descends d (steps pre) := by
  have hbraces : closeBrace ≠ openBrace := by decide
  induction l generalizing d with
  | nil => simp [closingBrace?]
  | cons p l ih =>
    obtain ⟨i, c⟩ := p
    rw [exists_split_cons_iff, Prod.mk.injEq]
    by_cases hopen : c = openBrace
    · subst hopen
      simp [closingBrace?, descends_up hd, ih (Nat.succ_pos d), hbraces.symm]
    · by_cases hclose : c = closeBrace
      · subst hclose
        obtain ⟨e, rfl⟩ := Nat.exists_eq_succ_of_ne_zero hd.ne'
        rcases Nat.eq_zero_or_pos e with rfl | he
        · simp [closingBrace?, hbraces, descends_down (d := 0)]
        · simp [closingBrace?, hbraces, descends_down (d := e), he, he.ne', ih he]
      · simp [closingBrace?, hopen, hclose, steps_other hopen hclose, ih hd]

/-! ## The region -/

open Classical in
/-- The braces outside strings from the place `first` to the place `last`, from left to right, for a
scan that begins at `start`. -/
noncomputable def braces (t : Bytes) (start first last : Nat) : List DyckStep :=
  (List.range' first (last + 1 - first)).filterMap fun i =>
    if Outside t start i then (t[i]?).bind braceStep? else none

/-- The byte `b` stands at `i`, outside strings. -/
def Unquoted (t : Bytes) (start i : Nat) (b : UInt8) : Prop := Outside t start i ∧ t[i]? = some b

/-- The first opening brace outside strings stands at `first`. -/
def Opens (t : Bytes) (start first : Nat) : Prop :=
  Unquoted t start first openBrace ∧ ∀ i < first, ¬ Unquoted t start i openBrace

/-- A closing brace stands outside strings at `last`, and the braces from `first` up to it make up a
prime Dyck word. -/
def Closes (t : Bytes) (start first last : Nat) : Prop :=
  Unquoted t start last closeBrace ∧ PrimeDyck (braces t start first last)

variable {start first last : Nat}

theorem isQuote_eq_false_of_braceStep? {s : DyckStep} (h : braceStep? b = some s) : isQuote b = false := by
  unfold braceStep? at h
  split at h
  · subst b
    decide
  · split at h
    · subst b
      decide
    · cases h

open Classical in
/-- What the scanner lists for the place `i`, if anything. -/
noncomputable def entryAt? (t : Bytes) (start i : Nat) : Option (Nat × UInt8) :=
  if Outside t start i then ((t[i]?).filter fun b => !isQuote b).map (i, ·) else none

theorem entryAt?_eq_some_iff {p : Nat × UInt8} : entryAt? t start i = some p ↔ p.1 = i ∧ p ∈ unquoted t start := by
  obtain ⟨k, b⟩ := p
  rw [mem_unquoted, entryAt?]
  by_cases hout : Outside t start i
  · simp only [if_pos hout, Option.map_eq_some_iff, Option.filter_eq_some_iff, Bool.not_eq_true', Prod.mk.injEq]
    constructor
    · rintro ⟨b, hb, rfl, rfl⟩
      exact ⟨rfl, hout, hb⟩
    · rintro ⟨rfl, -, hb⟩
      exact ⟨b, hb, rfl, rfl⟩
  · rw [if_neg hout]
    refine ⟨fun h => (by cases h), ?_⟩
    rintro ⟨rfl, hout', -⟩
    exact absurd hout' hout

/-- **What the scanner lists** between two places, place by place. -/
theorem filter_unquoted (t : Bytes) (start first last : Nat) :
    (unquoted t start).filter (fun p => first ≤ p.1 ∧ p.1 ≤ last) =
      (List.range' first (last + 1 - first)).filterMap (entryAt? t start) := by
  -- both lists go from left to right
  have hirrefl : Std.Irrefl fun p q : Nat × UInt8 => p.1 < q.1 := ⟨fun p => lt_irrefl p.1⟩
  have hantisymm : Std.Antisymm fun p q : Nat × UInt8 => p.1 < q.1 := ⟨fun p q hpq hqp => absurd hqp hpq.asymm⟩
  refine List.Pairwise.eq_of_mem_iff ((unquoted_ordered t start).filter _) ?_ fun p => ?_
  · refine List.pairwise_filterMap.mpr ((List.pairwise_lt_range' ..).imp fun hij p hp q hq => ?_)
    rw [(entryAt?_eq_some_iff.mp hp).1, (entryAt?_eq_some_iff.mp hq).1]
    exact hij
  · simp only [List.mem_filter, List.mem_filterMap, List.mem_range'_1, entryAt?_eq_some_iff, decide_eq_true_eq]
    constructor
    · rintro ⟨hp, hplace⟩
      exact ⟨p.1, by omega, rfl, hp⟩
    · rintro ⟨i, hi, rfl, hp⟩
      exact ⟨hp, by omega⟩

/-- The braces are those of the scanner's list that stand between the two places. -/
theorem braces_eq (t : Bytes) (start first last : Nat) :
    braces t start first last =
      steps ((unquoted t start).filter fun p => first ≤ p.1 ∧ p.1 ≤ last) := by
  rw [filter_unquoted, steps, List.filterMap_filterMap, braces]
  refine List.filterMap_congr fun i _ => ?_
  rw [entryAt?]
  split_ifs
  · cases t[i]? with
    | none => rfl
    | some b =>
      cases hstep : braceStep? b with
      | none => cases hquote : isQuote b <;> simp [Option.filter_some, hstep, hquote]
      | some s => simp [Option.filter_some, hstep, isQuote_eq_false_of_braceStep? hstep]
  · rfl

/-- The braces between two places of the scanner's list. -/
theorem braces_of_split {before pre post : List (Nat × UInt8)}
    (h : unquoted t start = before ++ (first, openBrace) :: (pre ++ (last, closeBrace) :: post)) :
    braces t start first last = U :: (steps pre ++ [D]) := by
  have hord := unquoted_ordered t start
  rw [h, List.pairwise_append, List.pairwise_cons, List.pairwise_append, List.pairwise_cons] at hord
  obtain ⟨-, ⟨hfirst, -, ⟨hlast, -⟩, hpre⟩, hbefore⟩ := hord
  have hlt : first < last := hfirst (last, closeBrace) (by simp)
  rw [braces_eq, h]
  have hb : before.filter (fun p => first ≤ p.1 ∧ p.1 ≤ last) = [] := by
    refine List.filter_eq_nil_iff.mpr fun p hp => ?_
    have := hbefore p hp (first, openBrace) (by simp)
    simp only [decide_eq_true_eq]
    omega
  have hm : pre.filter (fun p => first ≤ p.1 ∧ p.1 ≤ last) = pre := by
    refine List.filter_eq_self.mpr fun p hp => ?_
    have := hfirst p (by simp [hp])
    have := hpre p hp (last, closeBrace) (by simp)
    simp only [decide_eq_true_eq]
    omega
  have hp : post.filter (fun p => first ≤ p.1 ∧ p.1 ≤ last) = [] := by
    refine List.filter_eq_nil_iff.mpr fun p hp => ?_
    have := hlast p hp
    simp only [decide_eq_true_eq]
    omega
  rw [List.filter_append, hb, List.nil_append, List.filter_cons_of_pos (by simp [hlt.le]), List.filter_append,
    hm, List.filter_cons_of_pos (by simp [hlt.le]), hp, steps_open]
  simp [steps, braceStep?, openBrace, closeBrace]

theorem Unquoted.mem (h : Unquoted t start i b) (hq : isQuote b = false) : (i, b) ∈ unquoted t start :=
  mem_unquoted.mpr ⟨h.1, h.2, hq⟩

theorem Unquoted.of_mem (h : (i, b) ∈ unquoted t start) : Unquoted t start i b :=
  ⟨(mem_unquoted.mp h).1, (mem_unquoted.mp h).2.1⟩

theorem Closes.first_le (h : Closes t start first last) : first ≤ last := by
  by_contra hlt
  refine h.2.nonempty ?_
  simp [braces, show last + 1 - first = 0 by omega]

/-- Where the scanner's list splits at the first opening brace, a place closes the region if it is
the end that the depth count finds. -/
theorem closes_iff_of_split {before rest : List (Nat × UInt8)}
    (h : unquoted t start = before ++ (first, openBrace) :: rest) :
    Closes t start first last ↔ closingBrace? 1 rest = some last := by
  rw [closingBrace?_eq_some_iff Nat.one_pos]
  constructor
  · intro hc
    have hle := hc.first_le
    have hmem := hc.1.mem (by decide)
    rw [h, List.mem_append, List.mem_cons, Prod.mk.injEq] at hmem
    rcases hmem with hmem | ⟨-, hbyte⟩ | hmem
    · have hord := unquoted_ordered t start
      rw [h, List.pairwise_append] at hord
      have := hord.2.2 _ hmem (first, openBrace) (by simp)
      omega
    · exact absurd hbyte (by decide)
    · obtain ⟨pre, post, rfl⟩ := List.append_of_mem hmem
      refine ⟨pre, post, rfl, primeDyck_iff_descends.mp ?_⟩
      rw [← braces_of_split h]
      exact hc.2
  · rintro ⟨pre, post, rfl, hd⟩
    refine ⟨.of_mem (by simp [h]), ?_⟩
    rw [braces_of_split h]
    exact primeDyck_iff_descends.mpr hd

/-- The first opening brace splits the scanner's list. -/
theorem opens_of_split {before rest : List (Nat × UInt8)}
    (h : unquoted t start = before ++ (first, openBrace) :: rest) (hb : ∀ p ∈ before, p.2 ≠ openBrace) :
    Opens t start first := by
  refine ⟨.of_mem (by simp [h]), fun i hi hun => ?_⟩
  have hmem := hun.mem (by decide)
  have hord := unquoted_ordered t start
  rw [h, List.pairwise_append, List.pairwise_cons] at hord
  rw [h, List.mem_append, List.mem_cons, Prod.mk.injEq] at hmem
  rcases hmem with hmem | ⟨rfl, -⟩ | hmem
  · exact hb _ hmem rfl
  · exact lt_irrefl i hi
  · exact lt_asymm hi (hord.2.1.1 _ hmem)

theorem Opens.unique {first' : Nat} (h : Opens t start first) (h' : Opens t start first') : first = first' := by
  rcases lt_trichotomy first first' with hlt | rfl | hlt
  · exact absurd h.1 (h'.2 first hlt)
  · rfl
  · exact absurd h'.1 (h.2 first' hlt)

/-- **What the search for a region answers.** -/
theorem region_spec (t : Bytes) (start : Nat) :
    (region t start = .error .noOpening ∧ ∀ i, ¬ Unquoted t start i openBrace) ∨
      ∃ first, Opens t start first ∧
        ((∃ last, region t start = .ok ⟨first, last⟩ ∧ ∀ j, Closes t start first j ↔ j = last) ∨
          region t start = .error .unterminated ∧ ∀ j, ¬ Closes t start first j) := by
  have hsplit := List.takeWhile_append_dropWhile (p := fun p : Nat × UInt8 => p.2 != openBrace)
    (l := unquoted t start)
  cases hdrop : (unquoted t start).dropWhile (fun p => p.2 != openBrace) with
  | nil =>
    refine .inl ⟨by rw [region, hdrop], fun i hun => ?_⟩
    simpa using List.dropWhile_eq_nil_iff.mp hdrop _ (hun.mem (by decide))
  | cons p rest =>
    obtain ⟨first, c⟩ := p
    have hc : c = openBrace := by
      have hhead := List.head_dropWhile_not (fun p : Nat × UInt8 => p.2 != openBrace)
        (l := unquoted t start) (by simp [hdrop])
      simpa [hdrop] using hhead
    subst hc
    rw [hdrop] at hsplit
    have hopens : Opens t start first := opens_of_split hsplit.symm fun p hp => by
      simpa using List.mem_takeWhile_imp hp
    refine .inr ⟨first, hopens, ?_⟩
    cases hclose : closingBrace? 1 rest with
    | some last =>
      refine .inl ⟨last, by rw [region, hdrop]; simp [hclose], fun j => ?_⟩
      rw [closes_iff_of_split hsplit.symm, hclose, Option.some_inj, eq_comm]
    | none =>
      refine .inr ⟨by rw [region, hdrop]; simp [hclose], fun j => ?_⟩
      rw [closes_iff_of_split hsplit.symm, hclose]
      simp

/-- **The region is the prime Dyck word that starts at the first opening brace outside strings.** The
search gives the place where it ends, and there is at most one such place; the search fails for want
of an opening brace, or for want of such a place. -/
theorem findRegionEnd_exact (t : Bytes) (start : Int) :
    (∀ last, findRegionEnd t start = .ok last ↔
      ∃ first, Opens t (max start 0).toNat first ∧ Closes t (max start 0).toNat first last) ∧
    (∀ first, Opens t (max start 0).toNat first →
      {last | Closes t (max start 0).toNat first last}.Subsingleton) ∧
    (findRegionEnd t start = .error .unterminated ↔
      ∃ first, Opens t (max start 0).toNat first ∧ ¬ ∃ last, Closes t (max start 0).toNat first last) ∧
    (findRegionEnd t start = .error .noOpening ↔
      ¬ ∃ i, Unquoted t (max start 0).toNat i openBrace) := by
  have hstart : (max start 0).toNat = start.toNat := by omega
  rw [hstart, findRegionEnd]
  rcases region_spec t start.toNat with ⟨hregion, hnone⟩ | ⟨first, hopens, ⟨last, hregion, hcloses⟩ | ⟨hregion, hcloses⟩⟩
  · have hno : ∀ first, ¬ Opens t start.toNat first := fun first h => hnone first h.1
    simp [hregion, Except.map, hno, hnone]
  · have hfirst : ∀ first', Opens t start.toNat first' ↔ first' = first :=
      fun first' => ⟨fun h => h.unique hopens, fun h => h ▸ hopens⟩
    simp only [hregion, Except.map, hfirst, exists_eq_left, forall_eq, hcloses]
    refine ⟨fun j => ?_, Set.subsingleton_singleton, by simp, ?_⟩
    · rw [Except.ok.injEq, eq_comm]
    · simpa using ⟨first, hopens.1⟩
  · have hfirst : ∀ first', Opens t start.toNat first' ↔ first' = first :=
      fun first' => ⟨fun h => h.unique hopens, fun h => h ▸ hopens⟩
    simp only [hregion, Except.map, hfirst, exists_eq_left, forall_eq, hcloses]
    refine ⟨by simp, fun j hj => hj.elim, by simp, ?_⟩
    simpa using ⟨first, hopens.1⟩

end ScriptSplit.Script
