import Mathlib
import ScriptSplit.Script.Body
import ScriptSplit.Proofs.Script.Region

/-!
# Bounds of bodies

What `resolve` may answer: a span that lies in the text behind its header, and whose body has the
shape that its kind asks for. The readers of the header forms take a front part off a text, so what
they leave is the text from some offset on.

* `Span.Fits`, `Span.Braced`, `Span.Statement`: where a body lies and how it looks.
* `arrowHead?_suffix`: the head of an arrow function is a front part that is not empty.
* `bracedSpan_safe`, `lambdaSpan_safe`: the two ways to a span.
* **`resolve_safe`**: every span that is found can be cut out, and has its shape.
-/

namespace ScriptSplit.Script

/-! ## Shapes of spans -/

/-- The body lies in the text, and its header no later. -/
structure Span.Fits (s : Span) (t : Bytes) : Prop where
  header_le : s.header ≤ s.first
  first_le : s.first ≤ s.last
  last_lt : s.last < t.length

/-- The body starts with an opening brace and ends with a closing one. -/
structure Span.Braced (s : Span) (t : Bytes) : Prop where
  opens : (s.body t).head? = some openBrace
  closes : (s.body t).getLast? = some closeBrace

/-- The body is a statement without its end: it has no semicolon and no newline, starts with neither a
brace nor a blank, and runs up to a semicolon, a newline or the end of the text. -/
structure Span.Statement (s : Span) (t : Bytes) : Prop where
  bare : ∀ b ∈ s.body t, b ≠ 0x3b ∧ b ≠ newlineByte
  starts : ∀ b, (s.body t).head? = some b → b ≠ openBrace ∧ isBlankByte b = false
  maximal : s.last + 1 = t.length ∨ t[s.last + 1]? = some 0x3b ∨ t[s.last + 1]? = some newlineByte

variable {t r name : Bytes} {s : Span} {i header start : Nat}

theorem Span.Fits.length_body (h : s.Fits t) : (s.body t).length = s.last + 1 - s.first := by
  have := h.last_lt
  simp only [Span.body, List.length_drop, List.length_take]
  omega

theorem Span.getElem?_body (s : Span) {k : Nat} (hk : s.first + k ≤ s.last) :
    (s.body t)[k]? = t[s.first + k]? := by
  rw [Span.body, List.getElem?_drop, List.getElem?_take_of_lt (by omega)]

theorem Span.Fits.head?_body (h : s.Fits t) : (s.body t).head? = t[s.first]? := by
  rw [List.head?_eq_getElem?, s.getElem?_body (by simpa using h.first_le), Nat.add_zero]

theorem Span.Fits.getLast?_body (h : s.Fits t) : (s.body t).getLast? = t[s.last]? := by
  have := h.first_le
  rw [List.getLast?_eq_getElem?, h.length_body, s.getElem?_body (by omega)]
  congr 1
  omega

/-! ## Readers leave a rear part -/

theorem after?_eq_some {w : Bytes} (h : Bytes.after? w t = some r) : t = w ++ r := by
  induction w generalizing t with
  | nil => exact Option.some_inj.mp h
  | cons a w ih =>
    cases t with
    | nil => cases h
    | cons b t =>
      simp only [Bytes.after?] at h
      split at h
      · next hab => rw [beq_iff_eq.mp hab, ih h, List.cons_append]
      · cases h

theorem blanks_suffix (t : Bytes) : blanks t <:+ t := List.dropWhile_suffix _

theorem byte?_suffix {b : UInt8} (h : byte? b t = some r) : r <:+ t := by
  cases t with
  | nil => cases h
  | cons c t =>
    simp only [byte?] at h
    split at h
    · obtain rfl := Option.some_inj.mp h
      exact List.suffix_cons c _
    · cases h

theorem keyword?_suffix {w : String} (h : keyword? w t = some r) : r <:+ t :=
  ⟨Bytes.ofString w, (after?_eq_some h).symm⟩

theorem async_suffix (t : Bytes) : async t <:+ t := by
  unfold async
  split
  · next hr => exact (blanks_suffix _).trans (keyword?_suffix hr)
  · exact List.suffix_refl t

theorem parameters?_suffix (h : parameters? t = some r) : r <:+ t := by
  obtain ⟨r', hr', h⟩ := Option.bind_eq_some_iff.mp h
  exact ((byte?_suffix h).trans (List.dropWhile_suffix _)).trans (byte?_suffix hr')

/-- A word is not empty. -/
theorem word?_suffix {w : Bytes} (h : word? t = some (w, r)) : r <:+ t ∧ r.length < t.length := by
  have hsplit := congrArg List.length (List.takeWhile_append_dropWhile (p := isWordByte) (l := t))
  rw [List.length_append] at hsplit
  unfold word? at h
  split at h
  · cases h
  · next w _ =>
    cases h
    have := List.length_pos_iff.mpr ‹¬_ = []›
    exact ⟨List.dropWhile_suffix _, by omega⟩

/-- The head of an arrow function ends with the arrow and the blanks after it. -/
theorem arrowHead?_eq_some (h : arrowHead? t = some r) :
    ∃ u v, t = u ++ (Bytes.ofString "=>" ++ (v ++ r)) ∧ (∀ b ∈ v, isBlankByte b = true) ∧
      ∀ b, r.head? = some b → isBlankByte b = false := by
  obtain ⟨⟨w, r₁⟩, h₁, h⟩ := Option.bind_eq_some_iff.mp h
  obtain ⟨r₂, h₂, h⟩ := Option.bind_eq_some_iff.mp h
  obtain ⟨r₃, h₃, h⟩ := Option.bind_eq_some_iff.mp h
  obtain ⟨r₄, h₄, h⟩ := Option.bind_eq_some_iff.mp h
  cases h
  obtain ⟨u, hu⟩ : blanks r₃ <:+ t := by
    calc blanks r₃ <:+ r₃ := blanks_suffix _
      _ <:+ async (blanks r₂) := parameters?_suffix h₃
      _ <:+ blanks r₂ := async_suffix _
      _ <:+ r₂ := blanks_suffix _
      _ <:+ blanks r₁ := byte?_suffix h₂
      _ <:+ r₁ := blanks_suffix _
      _ <:+ t := (word?_suffix h₁).1
  refine ⟨u, r₄.takeWhile isBlankByte, ?_, fun b hb => List.mem_takeWhile_imp hb, fun b hb => ?_⟩
  · rw [blanks, List.takeWhile_append_dropWhile, ← after?_eq_some h₄, hu]
  · have := List.head?_dropWhile_not isBlankByte r₄
    rw [blanks] at hb
    rwa [hb] at this

/-- The head of an arrow function is not empty, and no blank follows it. -/
theorem arrowHead?_suffix (h : arrowHead? t = some r) :
    r <:+ t ∧ r.length < t.length ∧ ∀ b, r.head? = some b → isBlankByte b = false := by
  obtain ⟨u, v, rfl, -, hhead⟩ := arrowHead?_eq_some h
  have harrow : (Bytes.ofString "=>").length = 2 := rfl
  refine ⟨⟨u ++ Bytes.ofString "=>" ++ v, by simp only [List.append_assoc]⟩, ?_, hhead⟩
  simp only [List.length_append, harrow]
  omega

/-! ## Headers -/

theorem firstPlaceFrom_eq_some {test : Option UInt8 → Bytes → Bool} {before : Option UInt8} {o : Nat}
    (h : firstPlaceFrom test before o t = some i) :
    ∃ u v, t = u ++ v ∧ i = o + u.length ∧ test (u.getLast?.or before) v = true := by
  induction t generalizing before o with
  | nil =>
    simp only [firstPlaceFrom] at h
    split at h
    · next htest =>
      cases h
      exact ⟨[], [], rfl, rfl, htest⟩
    · cases h
  | cons b t ih =>
    simp only [firstPlaceFrom] at h
    split at h
    · next htest =>
      cases h
      exact ⟨[], b :: t, rfl, rfl, htest⟩
    · obtain ⟨u, v, rfl, rfl, htest⟩ := ih h
      refine ⟨b :: u, v, rfl, by rw [List.length_cons]; omega, ?_⟩
      cases u with
      | nil => exact htest
      | cons c u =>
        rw [List.getLast?_cons_cons, List.getLast?_eq_some_getLast (List.cons_ne_nil c u)]
        rwa [List.getLast?_eq_some_getLast (List.cons_ne_nil c u)] at htest

/-- The test holds at the first place. -/
theorem firstPlace_eq_some {test : Option UInt8 → Bytes → Bool} (h : firstPlace test t = some i) :
    i ≤ t.length ∧ test (t.take i).getLast? (t.drop i) = true := by
  obtain ⟨u, v, rfl, rfl, htest⟩ := firstPlaceFrom_eq_some h
  rw [Option.or_none] at htest
  rw [Nat.zero_add, List.take_left, List.drop_left, List.length_append]
  exact ⟨Nat.le_add_right _ _, htest⟩

/-- Where a name in word bytes stands there is a word byte. -/
theorem afterName_head {test : Bytes → Bool} (hname : name ≠ []) (hword : ∀ b ∈ name, isWordByte b = true)
    (h : afterName name test t = true) : ∃ b, t.head? = some b ∧ isWordByte b = true := by
  unfold afterName at h
  split at h
  · next r hr =>
    obtain ⟨b, name, rfl⟩ := List.exists_cons_of_ne_nil hname
    rw [after?_eq_some hr]
    exact ⟨b, rfl, hword b List.mem_cons_self⟩
  · cases h

/-- Where a declaration starts its keyword stands. -/
theorem startsDeclaration_head {before : Option UInt8} (h : startsDeclaration name before t = true) :
    ∃ b, t.head? = some b ∧ isWordByte b = true := by
  unfold startsDeclaration at h
  rw [Bool.and_eq_true] at h
  have h := h.2
  split at h
  · next r hr =>
    rw [after?_eq_some hr]
    exact ⟨0x66, rfl, by decide⟩
  · cases h

/-! ## The two ways to a span -/

/-- What holds of every span that is found: its bounds, its shape, and that its header lies before it
unless the header is the opening brace itself. -/
structure Span.Safe (s : Span) (t : Bytes) : Prop where
  fits : s.Fits t
  braced : s.isExpression = false → s.Braced t
  statement : s.isExpression = true → s.Statement t
  behind : t[s.header]? ≠ some openBrace → s.header < s.first

/-- The search for braces gives a body with braces at its ends. -/
theorem bracedSpan_safe (h : bracedSpan t header start = .ok s) (hle : header ≤ start) :
    s.Safe t ∧ s.header = header := by
  unfold bracedSpan at h
  rcases region_spec t start with ⟨hregion, -⟩ | ⟨first, hopens, ⟨last, hregion, hcloses⟩ | ⟨hregion, -⟩⟩
  · simp [hregion] at h
  · rw [hregion] at h
    cases h
    have hclose := (hcloses last).mpr rfl
    have hfits : Span.Fits ⟨header, first, last, false⟩ t :=
      ⟨hle.trans hopens.1.1.le, hclose.first_le, (List.getElem?_eq_some_iff.mp hclose.1.2).1⟩
    have hbraced : Span.Braced ⟨header, first, last, false⟩ t :=
      ⟨hfits.head?_body.trans hopens.1.2, hfits.getLast?_body.trans hclose.1.2⟩
    refine ⟨⟨hfits, fun _ => hbraced, nofun, fun hbyte => hfits.header_le.lt_of_ne fun heq => ?_⟩, rfl⟩
    exact hbyte ((congrArg (t[·]?) heq).trans hopens.1.2)
  · simp [hregion] at h

/-- The bytes up to the end of a statement, taken off a rear part of the text, are its body. -/
theorem statementSpan_safe {rest : Bytes} {n : Nat} (hrest : rest = t.drop start) (hlt : header < start)
    (hlen : (rest.takeWhile fun b => !endsStatement b).length = n + 1)
    (hbrace : rest.head? ≠ some openBrace) (hblank : ∀ b, rest.head? = some b → isBlankByte b = false) :
    Span.Safe ⟨header, start, start + n, true⟩ t := by
  have hsplit := List.takeWhile_append_dropWhile (p := fun b => !endsStatement b) (l := rest)
  have hbody : Span.body ⟨header, start, start + n, true⟩ t = rest.takeWhile fun b => !endsStatement b := by
    have htake := List.prefix_iff_eq_take.mp (List.takeWhile_prefix (fun b => !endsStatement b) (l := rest))
    rw [htake, hlen, hrest, Span.body, List.drop_take, show start + n + 1 - start = n + 1 by omega]
  have hcount := congrArg List.length hsplit
  rw [List.length_append, hlen] at hcount
  have hrestLength : rest.length = t.length - start := by rw [hrest, List.length_drop]
  have hfits : Span.Fits ⟨header, start, start + n, true⟩ t :=
    ⟨hlt.le, Nat.le_add_right _ _, by dsimp only; omega⟩
  refine ⟨hfits, nofun, fun _ => ⟨fun b hb => ?_, fun b hb => ?_, ?_⟩, fun _ => hlt⟩
  · rw [hbody] at hb
    simpa [endsStatement] using List.mem_takeWhile_imp hb
  · rw [hfits.head?_body] at hb
    have hhead : rest.head? = some b := by rw [hrest, List.head?_drop, hb]
    exact ⟨fun hopen => hbrace (hopen ▸ hhead), hblank b hhead⟩
  · -- The byte after the body is the first one that the scan for the end did not take.
    have hnext : t[start + n + 1]? = (rest.dropWhile fun b => !endsStatement b).head? := by
      have hdrop : rest.drop (n + 1) = rest.dropWhile fun b => !endsStatement b := by
        conv_lhs => rw [← hsplit]
        rw [List.drop_append_of_le_length hlen.ge, List.drop_of_length_le hlen.le, List.nil_append]
      rw [hrest, List.drop_drop] at hdrop
      rw [hrest, ← hdrop, List.head?_drop, Nat.add_assoc]
    cases hend : rest.dropWhile fun b => !endsStatement b with
    | nil =>
      rw [hend, List.length_nil] at hcount
      exact .inl (by dsimp only; omega)
    | cons b after =>
      have hends := List.head?_dropWhile_not (fun b => !endsStatement b) rest
      rw [hend] at hnext hends
      simp only [List.head?_cons, Bool.not_eq_false', endsStatement, Bool.or_eq_true, beq_iff_eq] at hnext hends
      dsimp only
      rw [hnext, Option.some_inj, Option.some_inj]
      exact .inr hends

/-- The body of a binding lies behind its header, with braces or as a statement. -/
theorem lambdaSpan_safe (h : lambdaSpan t header = .ok s) : s.Safe t ∧ s.header = header := by
  unfold lambdaSpan at h
  split at h
  · exact bracedSpan_safe h le_rfl
  · next rest hrest =>
    obtain ⟨hsuffix, hshort, hblank⟩ := arrowHead?_suffix hrest
    rw [List.length_drop] at hshort
    have hdrop : rest = t.drop (t.length - rest.length) :=
      List.suffix_iff_eq_drop.mp (hsuffix.trans (List.drop_suffix header t))
    have hlt : header < t.length - rest.length := by omega
    simp only at h
    split at h
    · exact bracedSpan_safe h hlt.le
    · next hbrace =>
      split at h
      · cases h
      · next n hlen =>
        cases h
        exact ⟨statementSpan_safe hdrop hlt hlen (by simpa using hbrace) hblank, rfl⟩

/-! ## The result -/

/-- One of the three header forms stands where the header of a found span is said to be. -/
theorem resolve_header (h : resolve t name = .ok s) :
    s.Safe t ∧ ∃ before, (startsDeclaration name before (t.drop s.header) = true ∨
      startsExpression name before (t.drop s.header) = true ∨
      startsLambda name before (t.drop s.header) = true) := by
  unfold resolve at h
  split at h
  · next hplace =>
    obtain ⟨hsafe, rfl⟩ := bracedSpan_safe h le_rfl
    exact ⟨hsafe, _, .inl (firstPlace_eq_some hplace).2⟩
  · split at h
    · next hplace =>
      obtain ⟨hsafe, rfl⟩ := bracedSpan_safe h le_rfl
      exact ⟨hsafe, _, .inr (.inl (firstPlace_eq_some hplace).2)⟩
    · split at h
      · next hplace =>
        obtain ⟨hsafe, rfl⟩ := lambdaSpan_safe h
        exact ⟨hsafe, _, .inr (.inr (firstPlace_eq_some hplace).2)⟩
      · cases h

/-- A header is a keyword, or a name in word bytes. -/
theorem header_word (h : resolve t name = .ok s) (hname : name ≠ [])
    (hword : ∀ b ∈ name, isWordByte b = true) : ∃ b, t[s.header]? = some b ∧ isWordByte b = true := by
  obtain ⟨-, before, hform⟩ := resolve_header h
  rw [← List.head?_drop]
  rcases hform with hform | hform | hform
  · exact startsDeclaration_head hform
  · exact afterName_head hname hword (Bool.and_eq_true_iff.mp hform).2
  · exact afterName_head hname hword (Bool.and_eq_true_iff.mp hform).2

/-- So it does not start with a brace. -/
theorem header_byte (h : resolve t name = .ok s) (hname : name ≠ [])
    (hword : ∀ b ∈ name, isWordByte b = true) : t[s.header]? ≠ some openBrace := by
  obtain ⟨b, hb, hbword⟩ := header_word h hname hword
  rw [hb, Ne, Option.some_inj]
  rintro rfl
  exact absurd hbword (by decide)

/-- **A span that is found can be cut out of the text.** It lies no earlier than its header, a body
with braces has them at its ends, and a body without them is a statement up to its end. The header of
a name in word bytes lies before the body. -/
theorem resolve_safe (h : resolve t name = .ok s) :
    s.Fits t ∧ (s.body t).length = s.last + 1 - s.first ∧
      (s.isExpression = false → s.Braced t) ∧ (s.isExpression = true → s.Statement t) ∧
      (name ≠ [] → (∀ b ∈ name, isWordByte b = true) → s.header < s.first) := by
  obtain ⟨hsafe, -⟩ := resolve_header h
  exact ⟨hsafe.fits, hsafe.fits.length_body, hsafe.braced, hsafe.statement,
    fun hname hword => hsafe.behind (header_byte h hname hword)⟩

/-- An arrow function whose body is an expression: the body ends at the semicolon. -/
theorem resolve_safe_arrow :
    resolve (Bytes.ofString "const f = (a) => a + 1;") (Bytes.ofString "f") = .ok ⟨6, 17, 21, true⟩ ∧
      Span.Statement ⟨6, 17, 21, true⟩ (Bytes.ofString "const f = (a) => a + 1;") ∧ 6 < 17 := by
  have h : resolve (Bytes.ofString "const f = (a) => a + 1;") (Bytes.ofString "f") = .ok ⟨6, 17, 21, true⟩ := by
    decide
  obtain ⟨-, -, -, hstatement, hheader⟩ := resolve_safe h
  exact ⟨h, hstatement rfl, hheader (by decide) (by decide +kernel)⟩

end ScriptSplit.Script
