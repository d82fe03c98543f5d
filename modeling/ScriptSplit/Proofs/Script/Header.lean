import Mathlib
import ScriptSplit.Proofs.Script.Declaration

/-!
# The headers of declarations

The forms that report a declaration and the forms by which its body is looked for are written apart. They
agree: where a declaration, a function expression or an arrow function was reported, its header is found
again. What is left are methods, and the word `function` at the end of a longer word, which reports a
declaration but is no header.

* `firstPlace_isSome`: a place at which a test holds is found, or an earlier one.
* `startsDeclaration_of_match`, `startsExpression_of_match`, `startsLambda_of_match`: the forms, one by one.
* `resolve_eq_headerNotFound`: no header is found if no form stands anywhere.
* **`header_found`**: the declarations whose header may be missing.
-/

namespace ScriptSplit.Script

variable {t r s name rest : Bytes} {i stop : Nat} {d : Declaration}

/-! ## The search for a place -/

theorem firstPlaceFrom_isSome {test : Option UInt8 → Bytes → Bool} {start : Nat} (hdrop : t.drop start = r)
    (hle : start ≤ i) (h : test (t.take i).getLast? (t.drop i) = true) (hi : i ≤ t.length) :
    (firstPlaceFrom test (t.take start).getLast? start r).isSome = true := by
  induction r generalizing start with
  | nil =>
    have hlength := List.drop_eq_nil_iff.mp hdrop
    obtain rfl : i = start := by omega
    rw [firstPlaceFrom, ← hdrop, if_pos h]
    rfl
  | cons b r ih =>
    rw [firstPlaceFrom]
    split_ifs with hhere
    · rfl
    · have hne : start ≠ i := by
        rintro rfl
        exact hhere (hdrop ▸ h)
      have hrest : t.drop (start + 1) = r := by
        rw [← List.drop_drop, hdrop]
        rfl
      rw [← getLast?_take_succ hdrop]
      exact ih hrest (by omega)

/-- A place at which a test holds is found, unless an earlier one is. -/
theorem firstPlace_isSome {test : Option UInt8 → Bytes → Bool} (h : test (t.take i).getLast? (t.drop i) = true)
    (hi : i ≤ t.length) : (firstPlace test t).isSome = true :=
  firstPlaceFrom_isSome rfl (Nat.zero_le i) h hi

theorem resolve_eq_headerNotFound {other : Bytes} (h : resolve t name = .error (.headerNotFound other)) :
    firstPlace (startsDeclaration name) t = none ∧ firstPlace (startsExpression name) t = none ∧
      firstPlace (startsLambda name) t = none := by
  have hbraced : ∀ header start, bracedSpan t header start ≠ .error (.headerNotFound other) := by
    intro header start h
    unfold bracedSpan at h
    split at h <;> cases h
  have hlambda : ∀ header, lambdaSpan t header ≠ .error (.headerNotFound other) := by
    intro header h
    unfold lambdaSpan at h
    split at h
    · exact hbraced _ _ h
    · dsimp only at h
      split at h
      · exact hbraced _ _ h
      · split at h <;> cases h
  unfold resolve at h
  split at h
  · exact absurd h (hbraced _ _)
  · next hdeclaration =>
    split at h
    · exact absurd h (hbraced _ _)
    · next hexpression =>
      split at h
      · exact absurd h (hlambda _)
      · next hlambda => exact ⟨hdeclaration, hexpression, hlambda⟩

/-! ## The forms, one by one -/

theorem afterBlanks1_append {test : Bytes → Bool} (hs : IsBlank s) (hne : s ≠ []) (h : test r = true) :
    afterBlanks1 test (s ++ r) = true := by
  induction s with
  | nil => exact absurd rfl hne
  | cons b s ih =>
    rw [List.cons_append, afterBlanks1, hs b List.mem_cons_self, Bool.true_and, Bool.or_eq_true]
    by_cases hnil : s = []
    · subst hnil
      exact .inl h
    · exact .inr (ih (fun c hc => hs c (List.mem_cons_of_mem b hc)) hnil)

/-- Where a word stands behind something that is no word there is a boundary. -/
theorem atBoundary_of_word {before : Option UInt8} (hbefore : NoWord before) (hword : IsWord name) :
    atBoundary before (name ++ r) = true := by
  obtain ⟨b, name, rfl⟩ := List.exists_cons_of_ne_nil hword.1
  have hb : isWordByte b = true := hword.2 b List.mem_cons_self
  simp [atBoundary, isWordBoundary, hbefore.any, hb]

theorem afterName_word {test : Bytes → Bool} (hword : word? r = some (name, rest)) (h : test rest = true) :
    afterName name test r = true := by
  obtain ⟨-, rfl, -⟩ := word?_eq_some_iff.mp hword
  rw [afterName, after?_append]
  exact h

/-- A declaration is found where it was reported, unless a word goes on into `function`. -/
theorem startsDeclaration_of_match (h : Match declarationForm t i name stop) (hbefore : NoWord (t.take i).getLast?) :
    startsDeclaration name (t.take i).getLast? (t.drop i) = true := by
  obtain ⟨s, r, hdrop, hs, hne, hheader⟩ := declarationForm_eq_some h.at_start
  obtain ⟨r', r'', hword, hpar, -⟩ := methodHeader?_eq_some_iff.mp hheader
  have hboundary : atBoundary (t.take i).getLast? (t.drop i) = true := by
    rw [hdrop]
    exact atBoundary_of_word hbefore ⟨by decide, by decide +kernel⟩
  have hcall : opensCall r' = true := by
    rw [opensCall, parameters?_eq_some hpar]
    rfl
  rw [startsDeclaration, hboundary, Bool.true_and, keyword?_eq_some_iff.mpr hdrop]
  exact afterBlanks1_append hs hne (afterName_word hword hcall)

/-- The binding of a name, from the name on. -/
theorem exists_binding (test : Bytes → Bool) (hi : i ≤ t.length) (h : binding? (t.drop i) = some (name, rest))
    (htest : test rest = true) : ∃ j ≤ t.length, atBoundary (t.take j).getLast? (t.drop j) = true ∧
      afterName name (assigns test) (t.drop j) = true := by
  obtain ⟨keyword, -, s, r, r', r'', hdrop, hs, hne, hword, hequals, rfl⟩ := binding?_eq_some h
  have hlength := congrArg List.length hdrop
  rw [List.length_drop, List.length_append, List.length_append] at hlength
  have hr : t.drop (i + (Bytes.ofString keyword ++ s).length) = r := by
    rw [← List.drop_drop, hdrop, ← List.append_assoc, List.drop_left]
  have hbefore : (t.take (i + (Bytes.ofString keyword ++ s).length)).getLast? = s.getLast? := by
    rw [List.take_add, hdrop, ← List.append_assoc, List.take_left, ← List.append_assoc,
      List.getLast?_append_of_ne_nil _ hne]
  obtain ⟨hname, hsplit, -⟩ := word?_eq_some_iff.mp hword
  refine ⟨i + (Bytes.ofString keyword ++ s).length, ?_, ?_, ?_⟩
  · rw [List.length_append]
    by_contra hlt
    have hnil : r = [] := List.length_eq_zero_iff.mp (by omega)
    rw [hnil] at hsplit
    exact hname.1 (List.append_eq_nil_iff.mp hsplit.symm).1
  · rw [hbefore, hr, hsplit]
    exact atBoundary_of_word (noWord_of_blanks hs) hname
  · rw [hr]
    refine afterName_word hword ?_
    rw [assigns, hequals]
    exact htest

theorem startsExpression_of_match (h : Match expressionForm t i name stop) :
    ∃ j ≤ t.length, startsExpression name (t.take j).getLast? (t.drop j) = true := by
  obtain ⟨r, r', hbinding, hkeyword, hparen⟩ := expressionForm_eq_some h.at_start
  have hfunction : isFunctionWord r = true := by
    obtain ⟨s, hs, rfl⟩ := (byte?_blanks_iff (by decide)).mp hparen
    rw [isFunctionWord, hkeyword]
    dsimp only
    rw [(noWord_openParen hs _).any]
    rfl
  obtain ⟨j, hj, hboundary, hname⟩ := exists_binding _ (h.lt.le.trans h.le) hbinding hfunction
  exact ⟨j, hj, by rw [startsExpression, hboundary, hname]; rfl⟩

theorem startsLambda_of_match (h : Match arrowForm t i name stop) :
    ∃ j ≤ t.length, startsLambda name (t.take j).getLast? (t.drop j) = true := by
  obtain ⟨r, r', hbinding, hpar, -⟩ := arrowForm_eq_some h.at_start
  have hopens : (r.head? == some openParen) = true := by
    rw [parameters?_eq_some hpar]
    rfl
  obtain ⟨j, hj, hboundary, hname⟩ := exists_binding (fun r => r.head? == some openParen) (h.lt.le.trans h.le)
    hbinding hopens
  exact ⟨j, hj, by rw [startsLambda, hboundary, hname]; rfl⟩

/-! ## Both sides together -/

/-- The word `function` of a declaration is the end of a longer word. -/
def Glued (t : Bytes) (d : Declaration) : Prop :=
  0 < d.offset ∧ ∃ b, t[d.offset - 1]? = some b ∧ isWordByte b = true

/-- The header of a declaration is missing only for a method, or for a `function` that ends a longer word. -/
theorem kind_of_headerNotFound (h : d ∈ extract t) {other : Bytes}
    (hmissing : resolve t (Bytes.ofString d.name) = .error (.headerNotFound other)) :
    d.kind = .method ∨ d.kind = .declaration ∧ Glued t d := by
  obtain ⟨hdeclaration, hexpression, hlambda⟩ := resolve_eq_headerNotFound hmissing
  obtain ⟨c, hc, rfl⟩ := exists_of_mem_keepFirst h
  obtain ⟨j, -, hrun⟩ := (anchored_of_mem hc).run
  dsimp only at hdeclaration hexpression hlambda ⊢
  rw [ofString_ascii hrun.word.2] at hdeclaration hexpression hlambda
  simp only [candidates, List.mem_append, List.mem_map] at hc
  obtain ((⟨m, hm, rfl⟩ | ⟨m, hm, rfl⟩) | ⟨m, hm, rfl⟩) | ⟨m, hm, rfl⟩ := hc
  · obtain ⟨-, stop, hmatch⟩ := (occurrences_scan takes_declarationForm t).exists_match hm
    have hle := hmatch.lt.le.trans hmatch.le
    refine .inr ⟨rfl, ?_⟩
    by_contra hglued
    have hbefore : NoWord (t.take m.1).getLast? := by
      intro b hb
      by_contra hword
      have hpos : 0 < m.1 := by
        by_contra hzero
        rw [Nat.eq_zero_of_not_pos hzero] at hb
        cases hb
      rw [getLast?_take hpos hle] at hb
      exact hglued ⟨hpos, b, hb, by simpa using hword⟩
    have hfound := firstPlace_isSome (startsDeclaration_of_match hmatch hbefore) hle
    rw [hdeclaration] at hfound
    cases hfound
  · obtain ⟨-, stop, hmatch⟩ := (occurrences_scan takes_expressionForm t).exists_match hm
    obtain ⟨j, hj, hstarts⟩ := startsExpression_of_match hmatch
    have hfound := firstPlace_isSome hstarts hj
    rw [hexpression] at hfound
    cases hfound
  · obtain ⟨-, stop, hmatch⟩ := (occurrences_scan takes_arrowForm t).exists_match hm
    obtain ⟨j, hj, hstarts⟩ := startsLambda_of_match hmatch
    have hfound := firstPlace_isSome hstarts hj
    rw [hlambda] at hfound
    cases hfound
  · exact .inl rfl

/-- **Headers are found again.** The search for the body of a declared function misses its header only if
the function is a method, or a declaration whose `function` ends a longer word; the header of a function
expression or of an arrow function is always found. -/
theorem header_found (h : d ∈ extract t) :
    (∀ other, resolve t (Bytes.ofString d.name) = .error (.headerNotFound other) →
      d.kind = .method ∨ d.kind = .declaration ∧ Glued t d) ∧
    (d.kind = .expression ∨ d.kind = .arrow →
      ∀ other, resolve t (Bytes.ofString d.name) ≠ .error (.headerNotFound other)) := by
  refine ⟨fun other hmissing => kind_of_headerNotFound h hmissing, fun hkind other hmissing => ?_⟩
  obtain hmethod | ⟨hdeclaration, -⟩ := kind_of_headerNotFound h hmissing
  · rw [hmethod] at hkind
    rcases hkind with hkind | hkind <;> cases hkind
  · rw [hdeclaration] at hkind
    rcases hkind with hkind | hkind <;> cases hkind

/-- The end of a longer word reports a declaration, whose header is missing then. -/
theorem header_found_glued :
    let t := Bytes.ofString "myfunction f() { }"
    let d : Declaration := ⟨"f", .declaration, 2, 1⟩
    d ∈ extract t ∧ resolve t (Bytes.ofString d.name) = .error (.headerNotFound (Bytes.ofString "f")) ∧ Glued t d := by
  intro t d
  have hmem : d ∈ extract t := by decide +kernel
  have hmissing : resolve t (Bytes.ofString d.name) = .error (.headerNotFound (Bytes.ofString "f")) := by decide
  obtain hmethod | ⟨-, hglued⟩ := (header_found hmem).1 _ hmissing
  · cases hmethod
  · exact ⟨hmem, hmissing, hglued⟩

end ScriptSplit.Script
