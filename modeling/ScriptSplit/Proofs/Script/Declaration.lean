import Mathlib
import ScriptSplit.Proofs.Registry.Edges
import ScriptSplit.Proofs.Script.Reading
import ScriptSplit.Proofs.Text.Lines

/-!
# The declarations of a text

The four forms are scanned one after the other, and a name belongs to the first match that reports it. So
the registry has its records in the order of the matches, each anchored where its form says, and no match
takes a name over from an earlier one.

* `Precedes`: the order of the matches; **`candidates_ordered`**: by form, then by place.
* `Anchored`: what the text has where a form matched; **`anchored_of_mem`**: every match is anchored.
* `keepFirst_sublist`, `keepFirst_owned`: a name belongs to the first match that reports it.
* `Registry`: all that the registry says about its text; **`registry_extract`**.
-/

namespace ScriptSplit.Script

variable {t name : Bytes} {c : Kind × Nat × Bytes} {d : Declaration}

/-! ## The order of the matches -/

/-- The forms in the order in which they are scanned. -/
def formRank : Kind → Nat
  | .declaration => 0
  | .expression => 1
  | .arrow => 2
  | .method => 3
  | .other _ => 4

/-- One match comes before another: by its form, or by its place among those of one form. -/
def Precedes (a b : Kind × Nat) : Prop := formRank a.1 < formRank b.1 ∨ a.1 = b.1 ∧ a.2 < b.2

/-- The form and the place of a match. -/
def placeOf (c : Kind × Nat × Bytes) : Kind × Nat := (c.1, c.2.1)

/-- The form and the place of a declaration. -/
def Declaration.place (d : Declaration) : Kind × Nat := (d.kind, d.offset)

/-- The name of a method stands inside of the match, as a whole word. -/
theorem lt_stop_of_method {i n stop : Nat} (h : Match methodForm t i (name, n) stop) :
    Run t (i + n) name ∧ i + n < stop := by
  obtain ⟨v, r, hdrop, rfl, hne, hv, hheader⟩ := methodForm_eq_some h.at_start
  obtain ⟨r', -, hword, -⟩ := methodHeader?_eq_some_iff.mp hheader
  have hlt := h.lt
  have hle := h.le
  constructor
  · have hrun := run_of_word? (u := t.take i ++ v) hword (by rwa [List.getLast?_append_of_ne_nil _ hne])
    rwa [List.append_assoc, ← hdrop, List.take_append_drop, List.length_append, List.length_take,
      Nat.min_eq_left (hlt.le.trans hle)] at hrun
  · have hshort := (methodHeader?_suffix hheader).2
    have hlength := congrArg List.length hdrop
    rw [List.length_append, List.length_drop] at hlength
    rw [List.length_drop] at hshort
    omega

/-- The matches of one form, each told by a place inside of it. -/
theorem matches_ordered {α : Type} {p : Pattern α} (hp : p.Takes) (kind : Kind) {place : Nat × α → Nat}
    (hplace : ∀ m stop, Match p t m.1 m.2 stop → m.1 ≤ place m ∧ place m < stop) :
    ((occurrences p t).map fun m => (kind, place m)).Pairwise Precedes := by
  have hscan := occurrences_scan hp t
  rw [List.pairwise_map]
  refine hscan.ordered.imp_of_mem fun {m m'} _ hm' hlater => ?_
  obtain ⟨stop, hmatch, hle⟩ := hlater
  obtain ⟨-, stop', hmatch'⟩ := hscan.exists_match hm'
  exact .inr ⟨rfl, ((hplace m stop hmatch).2.trans_le hle).trans_le (hplace m' stop' hmatch').1⟩

/-- **The matches are in order**, by form and then by place. -/
theorem candidates_ordered (t : Bytes) : ((candidates t).map placeOf).Pairwise Precedes := by
  have hstart : ∀ {α : Type} {p : Pattern α} (m : Nat × α) (stop : Nat), Match p t m.1 m.2 stop →
      m.1 ≤ m.1 ∧ m.1 < stop := fun m stop h => ⟨le_rfl, h.lt⟩
  have hmethod : ∀ (m : Nat × Bytes × Nat) (stop : Nat), Match methodForm t m.1 m.2 stop →
      m.1 ≤ m.1 + m.2.2 ∧ m.1 + m.2.2 < stop := fun m stop h =>
    ⟨Nat.le_add_right _ _, (lt_stop_of_method h).2⟩
  have hblocks : (candidates t).map placeOf =
      (occurrences declarationForm t).map (fun m => (Kind.declaration, m.1)) ++
      (occurrences expressionForm t).map (fun m => (Kind.expression, m.1)) ++
      (occurrences arrowForm t).map (fun m => (Kind.arrow, m.1)) ++
      (occurrences methodForm t).map (fun m => (Kind.method, m.1 + m.2.2)) := by
    simp only [candidates, List.map_append, List.map_map]
    rfl
  rw [hblocks]
  simp only [List.pairwise_append, List.mem_append, List.mem_map]
  refine ⟨⟨⟨matches_ordered takes_declarationForm _ hstart, matches_ordered takes_expressionForm _ hstart, ?_⟩,
    matches_ordered takes_arrowForm _ hstart, ?_⟩, matches_ordered takes_methodForm _ hmethod, ?_⟩
  · rintro _ ⟨m, -, rfl⟩ _ ⟨m', -, rfl⟩
    exact .inl (by simp [formRank])
  · rintro _ (⟨m, -, rfl⟩ | ⟨m, -, rfl⟩) _ ⟨m', -, rfl⟩
    · exact .inl (by simp [formRank])
    · exact .inl (by simp [formRank])
  · rintro _ ((⟨m, -, rfl⟩ | ⟨m, -, rfl⟩) | ⟨m, -, rfl⟩) _ ⟨m', -, rfl⟩
    · exact .inl (by simp [formRank])
    · exact .inl (by simp [formRank])
    · exact .inl (by simp [formRank])

/-! ## Where a match is anchored -/

/-- The keyword stands at `i`, and after blanks the name, as a whole word. -/
def Leads (t : Bytes) (i : Nat) (keyword : String) (name : Bytes) : Prop :=
  ∃ s, IsBlank s ∧ s ≠ [] ∧ Bytes.ofString keyword ++ s <+: t.drop i ∧
    Run t (i + (Bytes.ofString keyword ++ s).length) name

/-- What the text has at the place of a form: a keyword that leads to the name, or the name of a method. -/
def Anchored (t : Bytes) (kind : Kind) (i : Nat) (name : Bytes) : Prop :=
  match kind with
  | .declaration => Leads t i "function" name
  | .expression => ∃ keyword ∈ binders, Leads t i keyword name
  | .arrow => ∃ keyword ∈ binders, Leads t i keyword name
  | .method => Run t i name
  | .other _ => False

theorem leads_of_word? {i : Nat} {keyword : String} {s r rest : Bytes}
    (hdrop : t.drop i = Bytes.ofString keyword ++ (s ++ r)) (hi : i ≤ t.length) (hs : IsBlank s) (hne : s ≠ [])
    (hword : word? r = some (name, rest)) : Leads t i keyword name := by
  refine ⟨s, hs, hne, ⟨r, by rw [hdrop, List.append_assoc]⟩, ?_⟩
  have hbefore : NoWord (t.take i ++ (Bytes.ofString keyword ++ s)).getLast? := by
    rw [← List.append_assoc, List.getLast?_append_of_ne_nil _ hne]
    exact noWord_of_blanks hs
  have hrun := run_of_word? hword hbefore
  rwa [List.append_assoc, List.append_assoc, ← hdrop, List.take_append_drop, List.length_append, List.length_take,
    Nat.min_eq_left hi] at hrun

theorem leads_of_binding? {i : Nat} {rest : Bytes} (hi : i ≤ t.length)
    (h : binding? (t.drop i) = some (name, rest)) : ∃ keyword ∈ binders, Leads t i keyword name := by
  obtain ⟨keyword, hkeyword, s, r, r', r'', hdrop, hs, hne, hword, -⟩ := binding?_eq_some h
  exact ⟨keyword, hkeyword, leads_of_word? hdrop hi hs hne hword⟩

/-- **Every match is anchored** where its form says. -/
theorem anchored_of_mem (h : c ∈ candidates t) : Anchored t c.1 c.2.1 c.2.2 := by
  simp only [candidates, List.mem_append, List.mem_map] at h
  obtain ((⟨m, hm, rfl⟩ | ⟨m, hm, rfl⟩) | ⟨m, hm, rfl⟩) | ⟨m, hm, rfl⟩ := h
  · obtain ⟨-, stop, hmatch⟩ := (occurrences_scan takes_declarationForm t).exists_match hm
    obtain ⟨s, r, hdrop, hs, hne, hheader⟩ := declarationForm_eq_some hmatch.at_start
    obtain ⟨r', -, hword, -⟩ := methodHeader?_eq_some_iff.mp hheader
    exact leads_of_word? hdrop (hmatch.lt.le.trans hmatch.le) hs hne hword
  · obtain ⟨-, stop, hmatch⟩ := (occurrences_scan takes_expressionForm t).exists_match hm
    obtain ⟨r, r', hbinding, -⟩ := expressionForm_eq_some hmatch.at_start
    exact leads_of_binding? (hmatch.lt.le.trans hmatch.le) hbinding
  · obtain ⟨-, stop, hmatch⟩ := (occurrences_scan takes_arrowForm t).exists_match hm
    obtain ⟨r, r', hbinding, -⟩ := arrowForm_eq_some hmatch.at_start
    exact leads_of_binding? (hmatch.lt.le.trans hmatch.le) hbinding
  · obtain ⟨-, stop, hmatch⟩ := (occurrences_scan takes_methodForm t).exists_match hm
    obtain ⟨hrun, -⟩ := lt_stop_of_method hmatch
    exact hrun

theorem Anchored.run {kind : Kind} {i : Nat} (h : Anchored t kind i name) : ∃ j, i ≤ j ∧ Run t j name := by
  cases kind with
  | declaration =>
    obtain ⟨s, -, -, -, hrun⟩ := h
    exact ⟨_, Nat.le_add_right _ _, hrun⟩
  | expression =>
    obtain ⟨keyword, -, s, -, -, -, hrun⟩ := h
    exact ⟨_, Nat.le_add_right _ _, hrun⟩
  | arrow =>
    obtain ⟨keyword, -, s, -, -, -, hrun⟩ := h
    exact ⟨_, Nat.le_add_right _ _, hrun⟩
  | method => exact ⟨i, le_rfl, h⟩
  | other label => exact h.elim

/-! ## The first match of a name -/

/-- The record of a match. -/
def declarationOf (t : Bytes) (c : Kind × Nat × Bytes) : Declaration :=
  ⟨Bytes.ascii c.2.2, c.1, c.2.1, t.lineAt c.2.1⟩

theorem keepFirst_sublist (t : Bytes) (seen : List String) (found : List (Kind × Nat × Bytes)) :
    (keepFirst t seen found).Sublist (found.map (declarationOf t)) := by
  induction found generalizing seen with
  | nil => exact List.Sublist.refl _
  | cons c found ih =>
    obtain ⟨kind, offset, word⟩ := c
    rw [keepFirst]
    split_ifs
    · exact (ih seen).cons _
    · exact (ih _).cons_cons _

theorem keepFirst_unreserved {seen : List String} {found : List (Kind × Nat × Bytes)}
    (h : d ∈ keepFirst t seen found) : d.name ∉ reservedNames := by
  induction found generalizing seen with
  | nil => cases h
  | cons c found ih =>
    obtain ⟨kind, offset, word⟩ := c
    rw [keepFirst] at h
    split_ifs at h with hskip
    · exact ih h
    · obtain rfl | h := List.mem_cons.mp h
      · exact fun hreserved => hskip (.inr hreserved)
      · exact ih h

/-- **A name belongs to the first match** that reports it, unless it was seen before. -/
theorem keepFirst_owned {found : List (Kind × Nat × Bytes)} (hordered : (found.map placeOf).Pairwise Precedes)
    {seen : List String} (hc : c ∈ found) (hseen : Bytes.ascii c.2.2 ∉ seen)
    (hreserved : Bytes.ascii c.2.2 ∉ reservedNames) :
    ∃ d ∈ keepFirst t seen found, d.name = Bytes.ascii c.2.2 ∧ (d.place = placeOf c ∨ Precedes d.place (placeOf c)) := by
  induction found generalizing seen with
  | nil => cases hc
  | cons head found ih =>
    obtain ⟨kind, offset, word⟩ := head
    rw [List.map_cons, List.pairwise_cons] at hordered
    obtain ⟨hfirst, hordered⟩ := hordered
    rw [keepFirst]
    by_cases hname : Bytes.ascii word = Bytes.ascii c.2.2
    · rw [if_neg (by rw [hname]; exact not_or.mpr ⟨hseen, hreserved⟩)]
      refine ⟨_, List.mem_cons_self, hname, ?_⟩
      obtain rfl | hc := List.mem_cons.mp hc
      · exact .inl rfl
      · exact .inr (hfirst _ (List.mem_map_of_mem hc))
    · have hc : c ∈ found := (List.mem_cons.mp hc).resolve_left fun heq => hname (by rw [heq])
      split_ifs
      · exact ih hordered hc hseen
      · have hseen' : Bytes.ascii c.2.2 ∉ Bytes.ascii word :: seen := by
          rw [List.mem_cons, not_or]
          exact ⟨fun heq => hname heq.symm, hseen⟩
        obtain ⟨d, hd, howner⟩ := ih hordered hc hseen'
        exact ⟨d, List.mem_cons_of_mem _ hd, howner⟩

/-! ## The registry -/

/-- What a record says about its text: the name is a whole word of it and no reserved one, the place is
that of its form, and the line counts the newlines before the place. -/
structure Declared (t : Bytes) (d : Declaration) : Prop where
  unreserved : d.name ∉ reservedNames
  run : ∃ i, d.offset ≤ i ∧ Run t i (Bytes.ofString d.name)
  anchored : Anchored t d.kind d.offset (Bytes.ofString d.name)
  line : d.line = 1 + (t.take d.offset).count newlineByte

/-- What the registry says about its text: names are distinct, records are in the order of the matches, and
each match that reports a name comes from the record of the name or after it. -/
structure Registry (t : Bytes) (found : List Declaration) : Prop where
  names : (found.map (·.name)).Nodup
  declared : ∀ d ∈ found, Declared t d
  ordered : found.Pairwise fun d d' => Precedes d.place d'.place
  owned : ∀ c ∈ candidates t, Bytes.ascii c.2.2 ∉ reservedNames →
    ∃ d ∈ found, d.name = Bytes.ascii c.2.2 ∧ (d.place = placeOf c ∨ Precedes d.place (placeOf c))

theorem declared_extract (h : d ∈ extract t) : Declared t d := by
  have hunreserved := keepFirst_unreserved h
  obtain ⟨c, hc, rfl⟩ := exists_of_mem_keepFirst h
  have hanchored := anchored_of_mem hc
  obtain ⟨i, hi, hrun⟩ := hanchored.run
  have hword : Bytes.ofString (Bytes.ascii c.2.2) = c.2.2 := ofString_ascii hrun.word.2
  refine ⟨hunreserved, ⟨i, hi, ?_⟩, ?_, Bytes.lineAt_eq t _⟩
  · rw [hword]
    exact hrun
  · rw [hword]
    exact hanchored

theorem name_ne_empty (h : d ∈ extract t) : d.name ≠ "" := by
  obtain ⟨i, -, hrun⟩ := (declared_extract h).run
  intro hempty
  exact hrun.word.1 (by rw [hempty]; rfl)

/-- **The declarations of a text** are its registry. -/
theorem registry_extract (t : Bytes) : Registry t (extract t) := by
  refine ⟨extract_nodup t, fun d hd => declared_extract hd, ?_, fun c hc hreserved => ?_⟩
  · have hordered := candidates_ordered t
    rw [List.pairwise_map] at hordered
    have hplaces : ((candidates t).map (declarationOf t)).Pairwise fun d d' => Precedes d.place d'.place :=
      List.pairwise_map.mpr hordered
    exact hplaces.sublist (keepFirst_sublist t [] _)
  · exact keepFirst_owned (candidates_ordered t) hc List.not_mem_nil hreserved

/-- A binding above a declaration of the same name: the declaration owns the name. -/
example : extract (Bytes.ofString "let f = () => 1\nfunction f() { }\nclass A { if(x) { } }") =
    [⟨"f", .declaration, 16, 2⟩] := by decide +kernel

end ScriptSplit.Script
