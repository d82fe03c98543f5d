import Mathlib
import ScriptSplit.Proofs.Script.Occurrence
import ScriptSplit.Proofs.Text.Encoding
import ScriptSplit.Script.CallSite
import ScriptSplit.Script.Declaration

/-!
# What the readers take

Every reader takes a front part off a text. Here the fronts are told by their bytes: words, blanks and
keywords, and what may stand behind them.

* `IsWord`, `IsBlank`, `NoWord`: the fronts, and a rest with which no word goes on.
* `ofString_ascii`, `ascii_ofString`: words as strings.
* `word?_eq_some_iff`, `byte?_blanks_iff`, `blanks1_eq_some`, `keyword?_eq_some_iff`: single readers.
* `Run`: a maximal run of word bytes in a text.
* `firstMethod?_eq_some`: the name of a method is a whole word of the class body.
* `declarationForm_eq_some`, `binding?_eq_some`, `methodForm_eq_some`: where the name stands in a match.
* `takes_declarationForm` and its like: no match is empty.
-/

namespace ScriptSplit.Script

variable {t r s w name rest : Bytes} {b : UInt8}

/-- A word: one or more word bytes. -/
def IsWord (w : Bytes) : Prop := w ≠ [] ∧ ∀ b ∈ w, isWordByte b = true

/-- Nothing but blanks. -/
def IsBlank (s : Bytes) : Prop := ∀ b ∈ s, isBlankByte b = true

/-- A byte that may be missing is no word byte. -/
def NoWord (o : Option UInt8) : Prop := ∀ b, o = some b → isWordByte b = false

theorem NoWord.any {o : Option UInt8} (h : NoWord o) : o.any isWordByte = false := by
  cases o with
  | none => rfl
  | some b => exact h b rfl

theorem not_isWordByte_of_isBlankByte (h : isBlankByte b = true) : isWordByte b = false := by
  simp only [isBlankByte, Bool.or_eq_true, beq_iff_eq] at h
  rcases h with (((rfl | rfl) | rfl) | rfl) | rfl <;> decide

/-! ## The strings of words -/

theorem toNat_lt_of_isWordByte {b : UInt8} (h : isWordByte b = true) : b.toNat < 128 := by
  simp only [isWordByte, Bool.or_eq_true, Bool.and_eq_true, decide_eq_true_eq, beq_iff_eq, UInt8.le_iff_toNat_le] at h
  rcases h with ((rfl | ⟨-, h⟩) | ⟨-, h⟩) | ⟨-, h⟩
  · decide
  · exact h.trans_lt (by decide)
  · exact h.trans_lt (by decide)
  · exact h.trans_lt (by decide)

/-- The string of a word has the bytes of the word. -/
theorem ofString_ascii {w : Bytes} (h : ∀ b ∈ w, isWordByte b = true) : Bytes.ofString (Bytes.ascii w) = w :=
  Bytes.ofString_ascii fun b hb => toNat_lt_of_isWordByte (h b hb)

theorem ascii_ofString {s : String} (h : ∀ b ∈ Bytes.ofString s, isWordByte b = true) :
    Bytes.ascii (Bytes.ofString s) = s := Bytes.ofString_injective (ofString_ascii h)

/-! ## Single readers -/

theorem after?_append (w r : Bytes) : Bytes.after? w (w ++ r) = some r := by
  induction w with
  | nil => rfl
  | cons a w ih => simp [Bytes.after?, ih]

theorem keyword?_eq_some_iff {k : String} : keyword? k t = some r ↔ t = Bytes.ofString k ++ r :=
  ⟨after?_eq_some, fun h => by rw [keyword?, h, after?_append]⟩

/-- The front of a text up to the first byte that fails a test. -/
theorem takeWhile_front {test : UInt8 → Bool} (hall : ∀ b ∈ w, test b = true)
    (hend : ∀ b, r.head? = some b → test b = false) :
    (w ++ r).takeWhile test = w ∧ (w ++ r).dropWhile test = r := by
  rw [List.takeWhile_append_of_pos hall, List.dropWhile_append_of_pos hall]
  cases r with
  | nil => simp
  | cons b r => simp [hend b rfl]

theorem word?_eq_some_iff : word? t = some (w, r) ↔ IsWord w ∧ t = w ++ r ∧ NoWord r.head? := by
  constructor
  · intro h
    unfold word? at h
    split at h
    · cases h
    · next u hne =>
      cases h
      refine ⟨⟨fun hnil => hne hnil, fun b hb => List.mem_takeWhile_imp hb⟩,
        List.takeWhile_append_dropWhile.symm, fun b hb => ?_⟩
      have := List.head?_dropWhile_not isWordByte t
      rwa [hb] at this
  · rintro ⟨⟨hne, hword⟩, rfl, hend⟩
    obtain ⟨htake, hdrop⟩ := takeWhile_front hword hend
    unfold word?
    rw [htake, hdrop]
    cases w with
    | nil => exact absurd rfl hne
    | cons b w => rfl

/-- Blanks are skipped up to something else. -/
theorem blanks_front (hs : IsBlank s) (hend : ∀ b, r.head? = some b → isBlankByte b = false) : blanks (s ++ r) = r :=
  (takeWhile_front hs hend).2

theorem exists_blanks (t : Bytes) : ∃ s, IsBlank s ∧ t = s ++ blanks t :=
  ⟨t.takeWhile isBlankByte, fun _ hb => List.mem_takeWhile_imp hb, List.takeWhile_append_dropWhile.symm⟩

theorem byte?_eq_some_iff : byte? b t = some r ↔ t = b :: r := by
  cases t with
  | nil => simp [byte?]
  | cons c t =>
    by_cases hc : c = b
    · simp [byte?, hc]
    · simp [byte?, hc]

/-- A byte that is no blank follows after blanks. -/
theorem byte?_blanks_iff (hb : isBlankByte b = false) :
    byte? b (blanks t) = some r ↔ ∃ s, IsBlank s ∧ t = s ++ b :: r := by
  rw [byte?_eq_some_iff]
  constructor
  · intro h
    obtain ⟨s, hs, ht⟩ := exists_blanks t
    exact ⟨s, hs, by rw [ht, h]⟩
  · rintro ⟨s, hs, rfl⟩
    refine blanks_front hs fun c hc => ?_
    cases hc
    exact hb

theorem blanks1_eq_some (h : blanks1 t = some r) : ∃ s, IsBlank s ∧ s ≠ [] ∧ t = s ++ r := by
  cases t with
  | nil => cases h
  | cons b t =>
    rw [blanks1] at h
    split_ifs at h with hb
    cases h
    obtain ⟨s, hs, ht⟩ := exists_blanks t
    refine ⟨b :: s, ?_, List.cons_ne_nil _ _, by rw [List.cons_append, ← ht]⟩
    rintro c (_ | ⟨_, hc⟩)
    · exact hb
    · exact hs c hc

/-- After blanks the last of which stands in front of it, no word goes on. -/
theorem noWord_of_blanks (hs : IsBlank s) : NoWord s.getLast? := by
  intro b hb
  exact not_isWordByte_of_isBlankByte (hs b (List.mem_of_getLast? hb))

/-- A parenthesis ends a word, with blanks before it or without. -/
theorem noWord_openParen (hs : IsBlank s) (v : Bytes) : NoWord (s ++ openParen :: v).head? := by
  intro b hb
  cases s with
  | nil =>
    cases hb
    decide
  | cons c s =>
    cases hb
    exact not_isWordByte_of_isBlankByte (hs _ List.mem_cons_self)

/-! ## Words in a text -/

/-- The word is a maximal run of word bytes: it stands at offset `i`, and no word goes on across its
ends. -/
structure Run (t : Bytes) (i : Nat) (w : Bytes) : Prop where
  word : IsWord w
  split : ∃ u r, t = u ++ w ++ r ∧ u.length = i ∧ NoWord u.getLast? ∧ NoWord r.head?

/-- A word that is read behind something that is no word is a maximal run. -/
theorem run_of_word? {u : Bytes} (h : word? r = some (w, rest)) (hu : NoWord u.getLast?) : Run (u ++ r) u.length w := by
  obtain ⟨hword, rfl, hend⟩ := word?_eq_some_iff.mp h
  exact ⟨hword, u, rest, by rw [List.append_assoc], rfl, hu, hend⟩

/-! ## The forms -/

theorem methodHeader?_eq_some_iff : methodHeader? t = some (w, rest) ↔
    ∃ r r', word? t = some (w, r) ∧ parameters? (blanks r) = some r' ∧ byte? openBrace (blanks r') = some rest := by
  constructor
  · intro h
    obtain ⟨⟨w', r⟩, hword, h⟩ := Option.bind_eq_some_iff.mp h
    obtain ⟨r', hpar, h⟩ := Option.bind_eq_some_iff.mp h
    obtain ⟨r'', hbrace, h⟩ := Option.bind_eq_some_iff.mp h
    cases h
    exact ⟨r, r', hword, hpar, hbrace⟩
  · rintro ⟨r, r', hword, hpar, hbrace⟩
    simp [methodHeader?, hword, hpar, hbrace]

/-- A header of a method that stands behind a word byte would be one from that byte on. -/
theorem methodHeader?_cons (hb : isWordByte b = true) (h : methodHeader? t = some (name, rest)) :
    methodHeader? (b :: t) = some (b :: name, rest) := by
  obtain ⟨r, r', hword, hpar, hbrace⟩ := methodHeader?_eq_some_iff.mp h
  obtain ⟨⟨-, hall⟩, rfl, hend⟩ := word?_eq_some_iff.mp hword
  refine methodHeader?_eq_some_iff.mpr ⟨r, r', word?_eq_some_iff.mpr ⟨⟨List.cons_ne_nil _ _, ?_⟩, rfl, hend⟩, hpar, hbrace⟩
  rintro c (_ | ⟨_, hc⟩)
  · exact hb
  · exact hall c hc

/-- The first header of a method in a class body starts at its beginning or behind a byte that is no word
byte. -/
theorem firstMethod?_eq_some {n : Nat} (h : firstMethod? t = some (n, name, rest)) :
    ∃ v r, t = v ++ r ∧ v.length = n ∧ NoWord v.getLast? ∧ methodHeader? r = some (name, rest) := by
  induction t generalizing n with
  | nil => cases h
  | cons b t ih =>
    rw [firstMethod?] at h
    split at h
    · next name' rest' hheader =>
      cases h
      exact ⟨[], b :: t, rfl, rfl, nofun, hheader⟩
    · next hnone =>
      split_ifs at h
      obtain ⟨⟨m, name', rest'⟩, hfound, h⟩ := Option.map_eq_some_iff.mp h
      cases h
      obtain ⟨v, r, rfl, rfl, hv, hheader⟩ := ih hfound
      refine ⟨b :: v, r, rfl, rfl, ?_, hheader⟩
      cases v with
      | nil =>
        -- the scan would have stopped at `b` if it belonged to the word
        rintro c hc
        cases hc
        by_contra hword
        have hlonger := methodHeader?_cons (by simpa using hword) hheader
        rw [List.nil_append, hlonger] at hnone
        cases hnone
      | cons c v => rwa [List.getLast?_cons_cons]

/-! ## Where the name of a match stands -/

theorem parameters?_eq_some (h : parameters? t = some rest) : t.head? = some openParen := by
  obtain ⟨r, hr, -⟩ := Option.bind_eq_some_iff.mp h
  rw [byte?_eq_some_iff.mp hr]
  rfl

/-- A declaration is the word `function`, blanks and a name that a parenthesis follows. -/
theorem declarationForm_eq_some {before : Option UInt8} (h : declarationForm before t = some (name, rest)) :
    ∃ s r, t = Bytes.ofString "function" ++ (s ++ r) ∧ IsBlank s ∧ s ≠ [] ∧ methodHeader? r = some (name, rest) := by
  obtain ⟨r, hkeyword, h⟩ := Option.bind_eq_some_iff.mp h
  obtain ⟨r', hblanks, hheader⟩ := Option.bind_eq_some_iff.mp h
  obtain ⟨s, hs, hne, rfl⟩ := blanks1_eq_some hblanks
  exact ⟨s, r', keyword?_eq_some_iff.mp hkeyword, hs, hne, hheader⟩

/-- The words that start a binding. -/
def binders : List String := ["const", "let", "var"]

theorem binder?_eq_some (h : binder? t = some r) : ∃ k ∈ binders, t = Bytes.ofString k ++ r := by
  unfold binder? at h
  simp only [Option.orElse_eq_orElse, Option.orElse_eq_or, Option.or_eq_some_iff] at h
  rcases h with h | ⟨-, h | ⟨-, h⟩⟩
  · exact ⟨_, by simp [binders], keyword?_eq_some_iff.mp h⟩
  · exact ⟨_, by simp [binders], keyword?_eq_some_iff.mp h⟩
  · exact ⟨_, by simp [binders], keyword?_eq_some_iff.mp h⟩

/-- A binding is a binder, blanks, a name and an equals sign. -/
theorem binding?_eq_some (h : binding? t = some (name, rest)) :
    ∃ k ∈ binders, ∃ s r r' r'', t = Bytes.ofString k ++ (s ++ r) ∧ IsBlank s ∧ s ≠ [] ∧ word? r = some (name, r') ∧
      byte? equalsSign (blanks r') = some r'' ∧ rest = async (blanks r'') := by
  obtain ⟨r₁, hbinder, h⟩ := Option.bind_eq_some_iff.mp h
  obtain ⟨r, hblanks, h⟩ := Option.bind_eq_some_iff.mp h
  obtain ⟨⟨w, r'⟩, hword, h⟩ := Option.bind_eq_some_iff.mp h
  obtain ⟨r'', hequals, h⟩ := Option.bind_eq_some_iff.mp h
  cases h
  obtain ⟨k, hk, rfl⟩ := binder?_eq_some hbinder
  obtain ⟨s, hs, hne, rfl⟩ := blanks1_eq_some hblanks
  exact ⟨k, hk, s, r, r', r'', rfl, hs, hne, hword, hequals, rfl⟩

theorem expressionForm_eq_some {before : Option UInt8} (h : expressionForm before t = some (name, rest)) :
    ∃ r r', binding? t = some (name, r) ∧ keyword? "function" r = some r' ∧ byte? openParen (blanks r') = some rest := by
  obtain ⟨⟨w, r⟩, hbinding, h⟩ := Option.bind_eq_some_iff.mp h
  obtain ⟨r', hkeyword, h⟩ := Option.bind_eq_some_iff.mp h
  obtain ⟨r'', hparen, h⟩ := Option.bind_eq_some_iff.mp h
  cases h
  exact ⟨r, r', hbinding, hkeyword, hparen⟩

theorem arrowForm_eq_some {before : Option UInt8} (h : arrowForm before t = some (name, rest)) :
    ∃ r r', binding? t = some (name, r) ∧ parameters? r = some r' ∧ keyword? "=>" (blanks r') = some rest := by
  obtain ⟨⟨w, r⟩, hbinding, h⟩ := Option.bind_eq_some_iff.mp h
  obtain ⟨r', hpar, h⟩ := Option.bind_eq_some_iff.mp h
  obtain ⟨r'', hkeyword, h⟩ := Option.bind_eq_some_iff.mp h
  cases h
  exact ⟨r, r', hbinding, hpar, hkeyword⟩

/-- A class is matched up to the header of its first method, in front of which no word goes on. -/
theorem methodForm_eq_some {before : Option UInt8} {n : Nat} (h : methodForm before t = some ((name, n), rest)) :
    ∃ v r, t = v ++ r ∧ v.length = n ∧ v ≠ [] ∧ NoWord v.getLast? ∧ methodHeader? r = some (name, rest) := by
  obtain ⟨r₁, hkeyword, h⟩ := Option.bind_eq_some_iff.mp h
  obtain ⟨r₂, hblanks, h⟩ := Option.bind_eq_some_iff.mp h
  obtain ⟨⟨w, r₃⟩, hword, h⟩ := Option.bind_eq_some_iff.mp h
  obtain ⟨r₄, hbrace, h⟩ := Option.bind_eq_some_iff.mp h
  obtain ⟨⟨m, name', rest'⟩, hmethod, h⟩ := Option.bind_eq_some_iff.mp h
  cases h
  obtain ⟨s, -, -, rfl⟩ := blanks1_eq_some hblanks
  obtain ⟨-, rfl, -⟩ := word?_eq_some_iff.mp hword
  obtain ⟨s', -, rfl⟩ := (byte?_blanks_iff (by decide)).mp hbrace
  obtain ⟨v, r, rfl, rfl, hv, hheader⟩ := firstMethod?_eq_some hmethod
  have ht := keyword?_eq_some_iff.mp hkeyword
  refine ⟨Bytes.ofString "class" ++ (s ++ (w ++ (s' ++ [openBrace]))) ++ v, r, ?_, ?_, by simp, ?_, hheader⟩
  · rw [ht]
    simp
  · rw [ht]
    simp only [List.length_append, List.length_cons, List.length_nil]
    omega
  · cases v with
    | nil =>
      intro c hc
      rw [List.append_nil, ← List.append_assoc, ← List.append_assoc, ← List.append_assoc, List.getLast?_concat] at hc
      cases hc
      decide
    | cons c v => rwa [List.getLast?_append_cons]

theorem callForm_eq_some_iff {before : Option UInt8} : callForm before t = some (name, rest) ↔
    ∃ r, word? t = some (name, r) ∧ byte? openParen (blanks r) = some rest := by
  constructor
  · intro h
    obtain ⟨⟨w, r⟩, hword, h⟩ := Option.bind_eq_some_iff.mp h
    obtain ⟨r', hparen, h⟩ := Option.bind_eq_some_iff.mp h
    cases h
    exact ⟨r, hword, hparen⟩
  · rintro ⟨r, hword, hparen⟩
    simp [callForm, hword, hparen]

/-! ## No match is empty -/

theorem methodHeader?_suffix (h : methodHeader? t = some (name, rest)) : rest <:+ t ∧ rest.length < t.length := by
  obtain ⟨r, r', hword, hpar, hbrace⟩ := methodHeader?_eq_some_iff.mp h
  obtain ⟨hsuffix, hlt⟩ := word?_suffix hword
  have hrest : rest <:+ r :=
    ((byte?_suffix hbrace).trans (blanks_suffix _)).trans ((parameters?_suffix hpar).trans (blanks_suffix _))
  exact ⟨hrest.trans hsuffix, hrest.length_le.trans_lt hlt⟩

/-- What is left of a rear part is a rear part. -/
theorem suffix_append (u : Bytes) (h : rest <:+ r ∧ rest.length < r.length) :
    rest <:+ u ++ r ∧ rest.length < (u ++ r).length := by
  refine ⟨h.1.trans (List.suffix_append u r), h.2.trans_le ?_⟩
  rw [List.length_append]
  exact Nat.le_add_left _ _

theorem binding?_suffix (h : binding? t = some (name, rest)) : rest <:+ t ∧ rest.length < t.length := by
  obtain ⟨k, -, s, r, r', r'', rfl, -, -, hword, hequals, rfl⟩ := binding?_eq_some h
  obtain ⟨hsuffix, hlt⟩ := word?_suffix hword
  have hrest : async (blanks r'') <:+ r' :=
    ((async_suffix _).trans (blanks_suffix _)).trans ((byte?_suffix hequals).trans (blanks_suffix _))
  exact suffix_append _ (suffix_append s ⟨hrest.trans hsuffix, hrest.length_le.trans_lt hlt⟩)

theorem takes_declarationForm : declarationForm.Takes := by
  intro before t name rest h
  obtain ⟨s, r, rfl, -, -, hheader⟩ := declarationForm_eq_some h
  exact suffix_append _ (suffix_append s (methodHeader?_suffix hheader))

theorem takes_expressionForm : expressionForm.Takes := by
  intro before t name rest h
  obtain ⟨r, r', hbinding, hkeyword, hparen⟩ := expressionForm_eq_some h
  obtain ⟨hsuffix, hlt⟩ := binding?_suffix hbinding
  have hrest : rest <:+ r := ((byte?_suffix hparen).trans (blanks_suffix _)).trans (keyword?_suffix hkeyword)
  exact ⟨hrest.trans hsuffix, hrest.length_le.trans_lt hlt⟩

theorem takes_arrowForm : arrowForm.Takes := by
  intro before t name rest h
  obtain ⟨r, r', hbinding, hpar, hkeyword⟩ := arrowForm_eq_some h
  obtain ⟨hsuffix, hlt⟩ := binding?_suffix hbinding
  have hrest : rest <:+ r := ((keyword?_suffix hkeyword).trans (blanks_suffix _)).trans (parameters?_suffix hpar)
  exact ⟨hrest.trans hsuffix, hrest.length_le.trans_lt hlt⟩

theorem takes_methodForm : methodForm.Takes := by
  intro before t a rest h
  obtain ⟨v, r, rfl, -, -, -, hheader⟩ := methodForm_eq_some h
  exact suffix_append v (methodHeader?_suffix hheader)

theorem takes_callForm : callForm.Takes := by
  intro before t name rest h
  obtain ⟨r, hword, hparen⟩ := callForm_eq_some_iff.mp h
  obtain ⟨hsuffix, hlt⟩ := word?_suffix hword
  have hrest : rest <:+ r := (byte?_suffix hparen).trans (blanks_suffix _)
  exact ⟨hrest.trans hsuffix, hrest.length_le.trans_lt hlt⟩

end ScriptSplit.Script
