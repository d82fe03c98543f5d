import Mathlib
import ScriptSplit.Proofs.Analysis.CrossFile
import ScriptSplit.Proofs.Script.Declaration

/-!
# Reports on one file agree with themselves

The parts of a report come from the outline, the registry, the classifier and the counters. They tell
the same: a function without a body has no score and no dependencies, every count counts what it says,
and the two records are held by the first function that reaches them.

* `firstGreatest_spec`: one pass over the registry finds the first of the greatest.
* `Record`: a greatest value and its holder; `Consistent`: all that a report says about itself.
* **`analyze_consistent`**: every text has such a report, unless it is not UTF-8.
-/

namespace ScriptSplit

open Script Dependencies

/-! ## The least complexity -/

namespace Script

theorem complexity_pos (body : Bytes) : 0 < complexity body := by
  unfold complexity
  omega

end Script

/-! ## Records -/

/-- The greatest value of a measure over a registry, zero for an empty one, and the first function
that has it; no function holds a record of zero. -/
structure Record (measure : Function → Int) (functions : List Function) (holder : String) (top : Int) :
    Prop where
  top_eq : top = ((functions.map measure).max?).getD 0
  holder_eq : 0 < top → (functions.find? fun f => measure f = top).map (·.name) = some holder
  holder_eq_empty_iff : holder = "" ↔ top = 0

section Greatest

variable (measure : Function → Int)

theorem firstGreatest_concat (functions : List Function) (f : Function) :
    firstGreatest measure (functions ++ [f]) =
      if (firstGreatest measure functions).2 < measure f then (f.name, measure f)
      else firstGreatest measure functions := by
  unfold firstGreatest
  rw [List.foldl_append]
  rfl

/-- One pass over the registry: nothing is greater than what it found, and what it found is the start
or the value of the first function that has it. -/
theorem firstGreatest_spec (functions : List Function) :
    0 ≤ (firstGreatest measure functions).2 ∧
    (∀ f ∈ functions, measure f ≤ (firstGreatest measure functions).2) ∧
    (firstGreatest measure functions = ("", 0) ∨
      ∃ f ∈ functions, (functions.find? fun g => measure g = (firstGreatest measure functions).2) = some f ∧
        0 < measure f ∧ firstGreatest measure functions = (f.name, measure f)) := by
  induction functions using List.reverseRecOn with
  | nil => exact ⟨le_refl 0, fun f hf => absurd hf List.not_mem_nil, .inl rfl⟩
  | append_singleton functions f ih =>
    obtain ⟨hnonneg, hle, hcase⟩ := ih
    rw [firstGreatest_concat]
    split_ifs with hlt
    · -- a new record: no earlier function has the value
      have hnone : (functions.find? fun g => measure g = measure f) = none := by
        rw [List.find?_eq_none]
        intro g hg
        have := hle g hg
        simp only [decide_eq_true_eq]
        omega
      refine ⟨by omega, fun g hg => ?_, .inr ⟨f, by simp, ?_, by omega, rfl⟩⟩
      · rcases List.mem_append.mp hg with hg | hg
        · exact (hle g hg).trans hlt.le
        · rw [List.mem_singleton.mp hg]
      · simp [List.find?_append, hnone]
    · refine ⟨hnonneg, fun g hg => ?_, ?_⟩
      · rcases List.mem_append.mp hg with hg | hg
        · exact hle g hg
        · rw [List.mem_singleton.mp hg]
          omega
      · rcases hcase with hcase | ⟨g, hg, hfind, hpos, hcase⟩
        · exact .inl hcase
        · exact .inr ⟨g, List.mem_append_left _ hg, by simp [List.find?_append, hfind], hpos, hcase⟩

theorem record_firstGreatest {functions : List Function} (hnonneg : ∀ f ∈ functions, 0 ≤ measure f)
    (hnames : ∀ f ∈ functions, f.name ≠ "") :
    Record measure functions (firstGreatest measure functions).1 (firstGreatest measure functions).2 := by
  obtain ⟨-, hle, hcase⟩ := firstGreatest_spec measure functions
  rcases hcase with hcase | ⟨f, hf, hfind, hpos, hcase⟩
  · rw [hcase] at hle ⊢
    refine ⟨?_, fun h => absurd h (lt_irrefl 0), by simp⟩
    cases functions with
    | nil => rfl
    | cons f rest =>
      have hzero : measure f = 0 := le_antisymm (hle f List.mem_cons_self) (hnonneg f List.mem_cons_self)
      have hmax : ((f :: rest).map measure).max? = some 0 := by
        rw [List.max?_eq_some_iff]
        refine ⟨List.mem_map.mpr ⟨f, List.mem_cons_self, hzero⟩, fun b hb => ?_⟩
        obtain ⟨g, hg, rfl⟩ := List.mem_map.mp hb
        exact hle g hg
      rw [hmax]
      rfl
  · rw [hcase] at hle hfind ⊢
    have hmax : (functions.map measure).max? = some (measure f) := by
      rw [List.max?_eq_some_iff]
      refine ⟨List.mem_map_of_mem hf, fun b hb => ?_⟩
      obtain ⟨g, hg, rfl⟩ := List.mem_map.mp hb
      exact hle g hg
    refine ⟨by rw [hmax]; rfl, fun _ => ?_, ?_⟩
    · simp only [hfind]
      rfl
    · exact ⟨fun h => absurd h (hnames f hf), fun h => absurd h hpos.ne'⟩

end Greatest

/-! ## The parts of a report -/

section Parts

variable (cfg : Config) (path : String) (t : Bytes)

/-- A function of the report comes from an entry of the outline, whose body decides over it. -/
theorem exists_entry {f : Function} (hf : f ∈ (resultOf cfg path t).report.functions.items) :
    ∃ e ∈ (Outline.ofText t).entries, f.name = e.declaration.name ∧ f.resolved = Outline.isResolved e ∧
      (f.complexity = 0 ↔ Outline.isResolved e = false) ∧ 0 ≤ f.complexity ∧
      (Outline.isResolved e = false → f.dependencies.items = []) := by
  rw [functions_resultOf] at hf
  obtain ⟨s, hs, rfl⟩ := List.mem_map.mp hf
  obtain ⟨e, he, rfl⟩ := List.mem_map.mp hs
  refine ⟨e, he, score_name t _ _ e, resolved_score t, ?_, ?_, fun hunresolved => ?_⟩
  · rw [link_complexity]
    unfold score Outline.isResolved
    cases e.span with
    | error err => simp [Outline.function]
    | ok span =>
      have hpos := complexity_pos (span.body t)
      simp only [Int.natCast_eq_zero, Bool.true_eq_false, iff_false]
      omega
  · rw [link_complexity]
    unfold score
    cases e.span with
    | error err => simp [Outline.function]
    | ok span => exact Int.natCast_nonneg _
  · refine List.eq_nil_iff_forall_not_mem.mpr fun name hname => ?_
    obtain ⟨-, hcalls⟩ := dependsOn_iff.mp (mem_dependencies_link.mp hname).2
    obtain ⟨span, hspan, -⟩ := mem_calls_score.mp hcalls
    rw [Outline.isResolved, hspan] at hunresolved
    exact Bool.noConfusion hunresolved

theorem functions_eq_map : ∃ g : OutlineEntry → Function,
    (resultOf cfg path t).report.functions.items = (Outline.ofText t).entries.map g ∧
      ∀ e, (g e).name = e.declaration.name ∧ (g e).resolved = Outline.isResolved e := by
  refine ⟨fun e => Scored.link (scoredOf cfg t)
    (score t cfg.symbols.globals.items cfg.symbols.platformAPI.items e), ?_, fun e => ?_⟩
  · rw [functions_resultOf]
    conv_lhs => rw [scoredOf, List.map_map]
    rfl
  · exact ⟨score_name t _ _ e, resolved_score t⟩

theorem map_filter_entries (keep : Bool → Bool) :
    ((resultOf cfg path t).report.functions.items.filter fun f => keep f.resolved).map (·.name) =
      ((Outline.ofText t).entries.filter fun e => keep (Outline.isResolved e)).map (·.declaration.name) := by
  obtain ⟨g, hg, hentry⟩ := functions_eq_map cfg path t
  rw [hg, List.filter_map, List.map_map]
  have hkeep : ((fun f : Function => keep f.resolved) ∘ g) = fun e => keep (Outline.isResolved e) := by
    funext e
    simp [(hentry e).2]
  have hname : ((fun f : Function => f.name) ∘ g) = fun e => e.declaration.name := by
    funext e
    exact (hentry e).1
  rw [hkeep, hname]

end Parts

theorem names_unresolved (o : Outline) :
    o.unresolved.map (·.name) =
      (o.entries.filter fun e => !Outline.isResolved e).map (·.declaration.name) := by
  unfold Outline.unresolved
  induction o.entries with
  | nil => rfl
  | cons e entries ih =>
    cases hspan : e.span with
    | error err => simpa [Outline.isResolved, hspan] using ih
    | ok span => simpa [Outline.isResolved, hspan] using ih

/-! ## The whole report -/

/-- All that the report on a text says about itself. -/
structure Consistent (t : Bytes) (r : FileReport) : Prop where
  names : (r.functions.items.map (·.name)).Nodup
  /-- The functions with a body are those that the outline has a span for, in registry order. -/
  spans : (Outline.ofText t).spans.map Prod.fst =
    (r.functions.items.filter fun f => f.resolved).map (·.name)
  /-- The other functions are listed as unresolved, in registry order. -/
  unresolved : r.unresolved.map (·.name) = (r.functions.items.filter fun f => !f.resolved).map (·.name)
  /-- Every function is in one of the two lists. -/
  split : ∀ f ∈ r.functions.items, Xor (f.name ∈ (Outline.ofText t).spans.map Prod.fst)
    (f.name ∈ r.unresolved.map (·.name))
  complexity : ∀ f ∈ r.functions.items, f.complexity = 0 ↔ f.resolved = false
  dependencies : ∀ f ∈ r.functions.items, f.resolved = false → f.dependencies.items = []
  total : r.summary.totalFunctions = r.functions.items.length
  total_eq_resolved : r.summary.totalFunctions = r.summary.resolvedFunctions + r.unresolved.length
  total_eq_dependent : r.summary.totalFunctions =
    r.summary.functionsWithDependencies + r.summary.independentFunctions
  resolved : r.summary.resolvedFunctions = r.functions.items.countP fun f => f.resolved
  dependent : r.summary.functionsWithDependencies =
    r.functions.items.countP fun f => f.dependencies.items ≠ []
  edges : r.summary.totalEdges = (r.functions.items.map fun f => f.dependencies.items.length).sum
  mostComplex : Record (·.complexity) r.functions.items r.summary.mostComplexFunction
    r.summary.maxComplexity
  mostDependent : Record (fun f => f.dependencies.items.length) r.functions.items
    r.summary.mostDependentFunction r.summary.maxDependencies
  problems : r.summary.problemCount = r.problems.items.length

theorem length_eq_countP_add (p : Function → Bool) (functions : List Function) :
    (functions.length : Int) = functions.countP p + (functions.filter fun f => !p f).length := by
  rw [← List.countP_eq_length_filter, List.length_eq_countP_add_countP p]
  simp

theorem xor_resolved {functions : List Function} (hnodup : (functions.map (·.name)).Nodup) {f : Function}
    (hf : f ∈ functions) : Xor (f.name ∈ (functions.filter fun g => g.resolved).map (·.name))
      (f.name ∈ (functions.filter fun g => !g.resolved).map (·.name)) := by
  have hmem : ∀ p : Function → Bool, f.name ∈ (functions.filter p).map (·.name) ↔ p f = true := by
    intro p
    constructor
    · intro h
      obtain ⟨g, hg, hname⟩ := List.mem_map.mp h
      obtain ⟨hg, hp⟩ := List.mem_filter.mp hg
      rwa [List.inj_on_of_nodup_map hnodup hg hf hname] at hp
    · exact fun h => List.mem_map_of_mem (List.mem_filter.mpr ⟨hf, h⟩)
  rw [hmem, hmem]
  cases f.resolved <;> simp [Xor]

theorem consistent_resultOf (cfg : Config) (path : String) (t : Bytes) :
    Consistent t (resultOf cfg path t).report := by
  set r := (resultOf cfg path t).report with hr
  have hnodup : (r.functions.items.map (·.name)).Nodup := (callFacts_resultOf cfg path t).names_nodup
  have hspans : (Outline.ofText t).spans.map Prod.fst =
      (r.functions.items.filter fun f => f.resolved).map (·.name) :=
    (names_spans _).trans (map_filter_entries cfg path t id).symm
  have hunresolved : r.unresolved.map (·.name) =
      (r.functions.items.filter fun f => !f.resolved).map (·.name) :=
    (names_unresolved _).trans (map_filter_entries cfg path t (!·)).symm
  have hnames : ∀ f ∈ r.functions.items, f.name ≠ "" := by
    intro f hf
    obtain ⟨e, he, hname, -⟩ := exists_entry cfg path t hf
    obtain ⟨d, hd, rfl⟩ := List.mem_map.mp he
    rw [hname]
    exact name_ne_empty hd
  have hlength : r.unresolved.length = (r.functions.items.filter fun f => !f.resolved).length := by
    have := congrArg List.length hunresolved
    simpa using this
  refine
    { names := hnodup
      spans := hspans
      unresolved := hunresolved
      split := fun f hf => by
        rw [hspans, hunresolved]
        exact xor_resolved hnodup hf
      complexity := ?_
      dependencies := ?_
      total := rfl
      total_eq_resolved := ?_
      total_eq_dependent := ?_
      resolved := rfl
      dependent := ?_
      edges := ?_
      mostComplex := record_firstGreatest _ (fun f hf => ?_) hnames
      mostDependent := record_firstGreatest _ (fun f _ => Int.natCast_nonneg _) hnames
      problems := rfl }
  · intro f hf
    obtain ⟨e, -, -, hresolved, hcomplexity, -⟩ := exists_entry cfg path t hf
    rw [hresolved]
    exact hcomplexity
  · intro f hf hnone
    obtain ⟨e, -, -, hresolved, -, -, hdeps⟩ := exists_entry cfg path t hf
    exact hdeps (hresolved.symm.trans hnone)
  · rw [hlength]
    exact length_eq_countP_add (·.resolved) r.functions.items
  · refine (length_eq_countP_add (fun f => !f.dependencies.items.isEmpty) r.functions.items).trans ?_
    rw [← List.countP_eq_length_filter]
    simp only [Bool.not_not]
    rfl
  · change ((r.functions.items.countP fun f => !f.dependencies.items.isEmpty : Nat) : Int) = _
    congr 1
    refine List.countP_congr fun f _ => ?_
    simp
  · have hedges := Graph.edgeCount_ofFunctions (functions_nodup (scoredOf_nodup cfg t))
    exact congrArg Nat.cast hedges
  · obtain ⟨e, -, -, -, -, hnonneg, -⟩ := exists_entry cfg path t hf
    exact hnonneg

/-- **Every text has a report that agrees with itself**, unless it is not UTF-8; then there is the error
that says so. -/
theorem analyze_consistent (cfg : Config) (path : String) (content : Bytes) :
    (∃ s : String, Bytes.ofString s = content) ∧
        (∃ r, analyze cfg path content = .ok r ∧ r.report.path = path ∧ Consistent content r.report) ∨
      (¬ ∃ s : String, Bytes.ofString s = content) ∧ analyze cfg path content = .error ⟨path⟩ := by
  by_cases hvalid : Utf8.isValid content = true
  · refine .inl ⟨Utf8.isValid_iff.mp hvalid, resultOf cfg path content, if_pos hvalid, rfl, ?_⟩
    exact consistent_resultOf cfg path content
  · exact .inr ⟨fun h => hvalid (Utf8.isValid_iff.mpr h), if_neg hvalid⟩

end ScriptSplit
