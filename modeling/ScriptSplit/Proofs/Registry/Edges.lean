import Mathlib
import ScriptSplit.Proofs.Text.Encoding
import ScriptSplit.Proofs.Text.Sorted
import ScriptSplit.Registry.Dependency

/-!
# The edges of a registry

The registry of a text holds each name once, so an edge may be told from either of its ends, and the
graph keyed by name keeps every function that has an edge.

* `extract_nodup`: the declarations of a text have distinct names.
* `mem_dependencies_link`, `mem_dependents_link`: the edges of a function among scored entries.
* `sum_countP_comm`: counting the edges of callers or of callees gives the same number.
* `Linked`: what the registry of a text says about its bodies; **`ofOutline_linked`**: every
  registry is so linked.
-/

namespace ScriptSplit

open Script

/-! ## The names of a registry -/

theorem keepFirst_nodup (t : Bytes) (found : List (Kind × Nat × Bytes)) (seen : List String) :
    ((keepFirst t seen found).map (·.name)).Nodup ∧ ∀ d ∈ keepFirst t seen found, d.name ∉ seen := by
  induction found generalizing seen with
  | nil => simp [keepFirst]
  | cons c rest ih =>
    obtain ⟨kind, offset, word⟩ := c
    simp only [keepFirst]
    split_ifs with h
    · exact ih seen
    · obtain ⟨hnodup, hseen⟩ := ih (Bytes.ascii word :: seen)
      have hnew : ∀ d ∈ keepFirst t (Bytes.ascii word :: seen) rest, d.name ≠ Bytes.ascii word :=
        fun d hd heq => hseen d hd (by rw [heq]; exact List.mem_cons_self)
      constructor
      · rw [List.map_cons, List.nodup_cons]
        refine ⟨fun hmem => ?_, hnodup⟩
        obtain ⟨d, hd, heq⟩ := List.mem_map.mp hmem
        exact hnew d hd heq
      · intro d hd
        rcases List.mem_cons.mp hd with rfl | hd
        · exact fun hmem => h (Or.inl hmem)
        · exact fun hmem => hseen d hd (List.mem_cons_of_mem _ hmem)

/-- Every declaration is one of the candidates. -/
theorem exists_of_mem_keepFirst {t : Bytes} {found : List (Kind × Nat × Bytes)} {seen : List String}
    {d : Declaration} (h : d ∈ keepFirst t seen found) :
    ∃ c ∈ found, d = ⟨Bytes.ascii c.2.2, c.1, c.2.1, t.lineAt c.2.1⟩ := by
  induction found generalizing seen with
  | nil => exact absurd h List.not_mem_nil
  | cons c found ih =>
    obtain ⟨kind, offset, word⟩ := c
    rw [keepFirst] at h
    split_ifs at h
    · obtain ⟨c, hc, hd⟩ := ih h
      exact ⟨c, List.mem_cons_of_mem _ hc, hd⟩
    · obtain rfl | h := List.mem_cons.mp h
      · exact ⟨_, List.mem_cons_self, rfl⟩
      · obtain ⟨c, hc, hd⟩ := ih h
        exact ⟨c, List.mem_cons_of_mem _ hc, hd⟩

/-- **The declarations of a text have distinct names.** -/
theorem extract_nodup (t : Bytes) : ((extract t).map (·.name)).Nodup :=
  (keepFirst_nodup t (candidates t) []).1

theorem entries_nodup (t : Bytes) :
    ((Outline.ofText t).entries.map (·.declaration.name)).Nodup := by
  have h : (Outline.ofText t).entries.map (·.declaration.name) = (extract t).map (·.name) := by
    simp [Outline.ofText]
  rw [h]
  exact extract_nodup t

theorem mem_spans {o : Outline} {name : String} {span : Span} :
    (name, span) ∈ o.spans ↔ ∃ e ∈ o.entries, e.declaration.name = name ∧ e.span = .ok span := by
  simp only [Outline.spans, List.mem_filterMap]
  refine exists_congr fun e => and_congr Iff.rfl ?_
  cases e.span with
  | error err => simp
  | ok s => simp

theorem names_spans (o : Outline) :
    o.spans.map Prod.fst = (o.entries.filter Outline.isResolved).map (·.declaration.name) := by
  unfold Outline.spans
  induction o.entries with
  | nil => rfl
  | cons e entries ih =>
    cases hspan : e.span with
    | error err => simpa [Outline.isResolved, hspan] using ih
    | ok span => simpa [Outline.isResolved, hspan] using ih

namespace Dependencies

/-! ## Edges among scored entries -/

section Scored

variable {all : List Scored} {s s' : Scored}

theorem dependsOn_iff {name : String} :
    s.dependsOn name = true ↔ s.function.name ≠ name ∧ name ∈ s.calls.getD [] := by
  simp [Scored.dependsOn]

@[simp] theorem link_name : (s.link all).name = s.function.name := rfl

@[simp] theorem link_complexity : (s.link all).complexity = s.function.complexity := rfl

theorem link_dependencies :
    (s.link all).dependencies.items = sortStrings ((all.map (·.function.name)).filter s.dependsOn) :=
  rfl

theorem link_dependents : (s.link all).dependents.items =
    sortStrings ((all.filter (·.dependsOn s.function.name)).map (·.function.name)) := rfl

theorem mem_dependencies_link {name : String} : name ∈ (s.link all).dependencies.items ↔
    name ∈ all.map (·.function.name) ∧ s.dependsOn name = true := by
  rw [link_dependencies, mem_sortStrings, List.mem_filter]

theorem mem_dependents_link {name : String} : name ∈ (s.link all).dependents.items ↔
    ∃ c ∈ all, c.dependsOn s.function.name = true ∧ c.function.name = name := by
  rw [link_dependents, mem_sortStrings]
  simp only [List.mem_map, List.mem_filter, and_assoc]

variable (hall : (all.map (·.function.name)).Nodup)
include hall

theorem link_dependencies_strict : (s.link all).dependencies.items.Pairwise (· < ·) := by
  rw [link_dependencies]
  exact sortStrings_strict (hall.filter _)

theorem link_dependents_strict : (s.link all).dependents.items.Pairwise (· < ·) := by
  rw [link_dependents]
  exact sortStrings_strict ((List.filter_sublist.map _).nodup hall)

theorem eq_of_name_eq (hs : s ∈ all) (hs' : s' ∈ all) (h : s.function.name = s'.function.name) :
    s = s' := List.inj_on_of_nodup_map hall hs hs' h

/-- **An edge may be told from either of its ends.** -/
theorem mem_dependencies_iff_mem_dependents (hs : s ∈ all) (hs' : s' ∈ all) :
    s'.function.name ∈ (s.link all).dependencies.items ↔
      s.function.name ∈ (s'.link all).dependents.items := by
  rw [mem_dependencies_link, mem_dependents_link]
  constructor
  · rintro ⟨-, h⟩
    exact ⟨s, hs, h, rfl⟩
  · rintro ⟨c, hc, h, hname⟩
    rw [eq_of_name_eq hall hc hs hname] at h
    exact ⟨List.mem_map_of_mem hs', h⟩

end Scored

/-! ## Counting edges -/

/-- Summing over rows or over columns counts the same pairs. -/
theorem sum_countP_comm {α β : Type} (p : α → β → Bool) (l : List α) (m : List β) :
    (l.map fun a => m.countP (p a)).sum = (m.map fun b => l.countP fun a => p a b).sum := by
  induction l with
  | nil => simp
  | cons a l ih =>
    have hcount : ∀ m : List β, m.countP (p a) = (m.map fun b => if p a b then 1 else 0).sum := by
      intro m
      induction m with
      | nil => rfl
      | cons b m ihm => rw [List.countP_cons, List.map_cons, List.sum_cons, ihm, add_comm]
    have hcons : (fun b => (a :: l).countP fun a => p a b) =
        fun b => l.countP (fun a => p a b) + if p a b then 1 else 0 := by
      funext b
      rw [List.countP_cons]
    rw [List.map_cons, List.sum_cons, ih, hcons, List.sum_map_add, hcount, add_comm]

theorem length_dependencies_link (all : List Scored) (s : Scored) :
    (s.link all).dependencies.items.length = all.countP fun c => s.dependsOn c.function.name := by
  rw [link_dependencies, length_sortStrings, ← List.countP_eq_length_filter, List.countP_map]
  rfl

theorem length_dependents_link (all : List Scored) (s : Scored) :
    (s.link all).dependents.items.length = all.countP fun c => c.dependsOn s.function.name := by
  rw [link_dependents, length_sortStrings, List.length_map, ← List.countP_eq_length_filter]

/-- **There are as many edges to callees as edges from callers.** -/
theorem sum_dependencies_eq_sum_dependents (all : List Scored) :
    ((all.map (Scored.link all)).map fun f => f.dependencies.items.length).sum =
      ((all.map (Scored.link all)).map fun f => f.dependents.items.length).sum := by
  simp only [List.map_map, Function.comp_def, length_dependencies_link, length_dependents_link]
  exact sum_countP_comm (fun s c : Scored => s.dependsOn c.function.name) all all

end Dependencies

/-! ## The graph -/

namespace Graph

theorem edgeCount_eq_sum (g : Graph) :
    g.edgeCount = (g.map fun p => p.2.dependencies.items.length).sum := by
  induction g with
  | nil => rfl
  | cons p g ih =>
    rw [List.map_cons, List.sum_cons, ← ih]
    rfl

/-- The entry of a function. -/
def entryOf (f : Function) : GraphEntry := ⟨f.dependencies, f.dependents, f.complexity⟩

variable {functions : List Function} (h : (functions.map (·.name)).Nodup)
include h

theorem ofFunctions_perm : (ofFunctions functions).Perm
    ((functions.filter Function.hasEdges).map fun f => (f.name, entryOf f)) := by
  refine Dict.perm_ofList ?_
  rw [List.map_map]
  exact ((List.filter_sublist.map _).nodup h)

/-- **The graph has an entry for exactly the functions with an edge.** -/
theorem get?_ofFunctions_iff {name : String} {entry : GraphEntry} :
    (ofFunctions functions).get? name = some entry ↔
      ∃ f ∈ functions, f.name = name ∧ f.hasEdges = true ∧ entry = entryOf f := by
  have hord : Dict.Ordered (ofFunctions functions) := Dict.ofList_ordered _
  rw [hord.get?_eq_some_iff, (ofFunctions_perm h).mem_iff, List.mem_map]
  constructor
  · rintro ⟨f, hf, heq⟩
    obtain ⟨hmem, hedges⟩ := List.mem_filter.mp hf
    obtain ⟨rfl, rfl⟩ := Prod.mk.inj heq
    exact ⟨f, hmem, rfl, hedges, rfl⟩
  · rintro ⟨f, hmem, rfl, hedges, rfl⟩
    exact ⟨f, List.mem_filter.mpr ⟨hmem, hedges⟩, rfl⟩

/-- **The graph counts every dependency of the functions.** -/
theorem edgeCount_ofFunctions : (ofFunctions functions).edgeCount =
    (functions.map fun f => f.dependencies.items.length).sum := by
  rw [edgeCount_eq_sum, ((ofFunctions_perm h).map _).sum_eq, List.map_map]
  clear h
  induction functions with
  | nil => rfl
  | cons f functions ih =>
    rw [List.map_cons, List.sum_cons, ← ih, List.filter_cons]
    split_ifs with hf
    · rw [List.map_cons, List.sum_cons]
      rfl
    · -- a function without edges has no dependencies to count
      have hnil : f.dependencies.items = [] := by
        simp only [Function.hasEdges, Bool.or_eq_true, Bool.not_eq_true', List.isEmpty_eq_false_iff,
          not_or, not_not] at hf
        exact hf.1
      rw [hnil]
      simp

end Graph

namespace Dependencies

/-! ## The registry of a text -/

theorem score_name (t : Bytes) (globals patterns : List String) (e : OutlineEntry) :
    (score t globals patterns e).function.name = e.declaration.name := by
  unfold score
  cases e.span with
  | error err => rfl
  | ok span => rfl

theorem mem_calls_score {t : Bytes} {globals patterns : List String} {e : OutlineEntry}
    {name : String} : name ∈ (score t globals patterns e).calls.getD [] ↔
      ∃ span, e.span = .ok span ∧ name ∈ Script.callSites (span.body t) := by
  unfold score
  cases e.span with
  | error err => simp
  | ok span => simp

theorem names_scored (t : Bytes) (o : Outline) (globals patterns : List String) :
    (o.entries.map (score t globals patterns)).map (·.function.name) =
      o.entries.map (·.declaration.name) := by
  rw [List.map_map]
  exact List.map_congr_left fun e _ => score_name t globals patterns e

/-- A listing of names that is filled in: in increasing order of bytes, of functions of the registry
other than the given one. -/
def ListsOthers (d : Dependencies) (f : Function) (l : Listing String) : Prop :=
  ∃ names, l = some names ∧ names.Pairwise (fun x y => Bytes.ofString x < Bytes.ofString y) ∧
    (∀ x ∈ names, x ∈ d.functions.map (·.name)) ∧ f.name ∉ names

/-- What the registry of an outline says about its bodies. -/
structure Linked (t : Bytes) (o : Outline) (d : Dependencies) : Prop where
  /-- The registry has one function for each entry. -/
  names : d.functions.map (·.name) = o.entries.map (·.declaration.name)
  /-- A function depends on another one exactly if its body was found and calls it. -/
  calls : ∀ (i j : Nat) (a b : Function), d.functions[i]? = some a → d.functions[j]? = some b →
    (b.name ∈ a.dependencies.items ↔
      i ≠ j ∧ ∃ span, (a.name, span) ∈ o.spans ∧ b.name ∈ Script.callSites (span.body t))
  /-- The two ends of an edge agree. -/
  mirror : ∀ a ∈ d.functions, ∀ b ∈ d.functions,
    (b.name ∈ a.dependencies.items ↔ a.name ∈ b.dependents.items)
  listings : ∀ f ∈ d.functions, ListsOthers d f f.dependencies ∧ ListsOthers d f f.dependents
  keys : d.graph.keys.Pairwise (· < ·)
  /-- The graph has exactly the functions with an edge. -/
  graph : ∀ (name : String) (entry : GraphEntry), d.graph.get? name = some entry ↔
    ∃ f ∈ d.functions, f.name = name ∧ (f.dependencies.items ≠ [] ∨ f.dependents.items ≠ []) ∧
      entry = ⟨f.dependencies, f.dependents, f.complexity⟩
  edges_out : d.graph.edgeCount = (d.functions.map fun f => f.dependencies.items.length).sum
  edges_in : d.graph.edgeCount = (d.functions.map fun f => f.dependents.items.length).sum

section Registry

variable {all : List Scored} (hall : (all.map (·.function.name)).Nodup)

theorem names_ofScored (all : List Scored) :
    (ofScored all).functions.map (·.name) = all.map (·.function.name) := by
  simp [ofScored]

include hall

theorem listsOthers_ofScored {f : Function} (hf : f ∈ (ofScored all).functions) :
    ListsOthers (ofScored all) f f.dependencies ∧ ListsOthers (ofScored all) f f.dependents := by
  obtain ⟨s, hs, rfl⟩ := List.mem_map.mp hf
  refine ⟨⟨_, rfl, ?_, ?_, ?_⟩, ⟨_, rfl, ?_, ?_, ?_⟩⟩
  · exact (link_dependencies_strict hall).imp fun h => Bytes.ofString_lt_iff.mpr h
  · intro x hx
    rw [names_ofScored]
    exact (mem_dependencies_link.mp hx).1
  · intro hx
    exact (dependsOn_iff.mp (mem_dependencies_link.mp hx).2).1 rfl
  · exact (link_dependents_strict hall).imp fun h => Bytes.ofString_lt_iff.mpr h
  · intro x hx
    obtain ⟨c, hc, -, rfl⟩ := mem_dependents_link.mp hx
    rw [names_ofScored]
    exact List.mem_map_of_mem hc
  · intro hx
    obtain ⟨c, -, hdep, hname⟩ := mem_dependents_link.mp hx
    exact (dependsOn_iff.mp hdep).1 hname

theorem functions_nodup : ((ofScored all).functions.map (·.name)).Nodup := by
  rw [names_ofScored]
  exact hall

/-- The call sites of a registry are those of its bodies. -/
theorem get?_callSites_iff {name : String} {calls : List String} :
    (ofScored all).callSites.get? name = some calls ↔
      ∃ s ∈ all, s.function.name = name ∧ s.calls = some calls := by
  have hkeys : ∀ l : List Scored, (l.filterMap fun s => s.calls.map fun c =>
      (s.function.name, c)).map Prod.fst = (l.filter fun s => s.calls.isSome).map (·.function.name) := by
    intro l
    induction l with
    | nil => rfl
    | cons s l ih => cases hc : s.calls <;> simp [hc, ih]
  have hnodup : ((all.filterMap fun s => s.calls.map fun c =>
      (s.function.name, c)).map Prod.fst).Nodup := by
    rw [hkeys]
    exact (List.filter_sublist.map _).nodup hall
  have hord : Dict.Ordered (ofScored all).callSites := Dict.ofList_ordered _
  rw [hord.get?_eq_some_iff]
  refine (Dict.perm_ofList hnodup).mem_iff.trans ?_
  simp only [List.mem_filterMap, Option.map_eq_some_iff, Prod.mk.injEq]
  constructor
  · rintro ⟨s, hs, c, hc, hname, rfl⟩
    exact ⟨s, hs, hname, hc⟩
  · rintro ⟨s, hs, hname, hc⟩
    exact ⟨s, hs, calls, hc, hname, rfl⟩

/-- Functions at different places of a registry have different names. -/
theorem name_eq_iff {i j : Nat} {a b : Function} (ha : (ofScored all).functions[i]? = some a)
    (hb : (ofScored all).functions[j]? = some b) : a.name = b.name ↔ i = j := by
  have hi : ((ofScored all).functions.map (·.name))[i]? = some a.name := by simp [ha]
  have hj : ((ofScored all).functions.map (·.name))[j]? = some b.name := by simp [hb]
  constructor
  · intro h
    obtain ⟨hlt, -⟩ := List.getElem?_eq_some_iff.mp hi
    exact (List.getElem?_inj hlt (functions_nodup hall)).mp (by rw [hi, hj, h])
  · rintro rfl
    exact Option.some.inj (hi.symm.trans hj)

end Registry

theorem hasEdges_iff {f : Function} :
    f.hasEdges = true ↔ f.dependencies.items ≠ [] ∨ f.dependents.items ≠ [] := by
  simp [Function.hasEdges]

/-- **The registry of a text is linked as its bodies call.** -/
theorem ofOutline_linked (t : Bytes) (globals patterns : List String) :
    Linked t (Outline.ofText t) (ofOutline t (Outline.ofText t) globals patterns) := by
  set o := Outline.ofText t
  set all := o.entries.map (score t globals patterns) with hdef
  have hnames : all.map (·.function.name) = o.entries.map (·.declaration.name) :=
    names_scored t o globals patterns
  have hall : (all.map (·.function.name)).Nodup := by
    rw [hnames]
    exact entries_nodup t
  change Linked t o (ofScored all)
  have hmem : ∀ {f : Function}, f ∈ (ofScored all).functions → ∃ s ∈ all, s.link all = f :=
    fun hf => List.mem_map.mp hf
  refine
    { names := by rw [names_ofScored, hnames]
      calls := ?_
      mirror := ?_
      listings := fun f hf => listsOthers_ofScored hall hf
      keys := Dict.ofList_ordered _
      graph := ?_
      edges_out := Graph.edgeCount_ofFunctions (functions_nodup hall)
      edges_in := ?_ }
  · intro i j a b ha hb
    have hij := name_eq_iff hall ha hb
    obtain ⟨s, hs, rfl⟩ := hmem (List.mem_of_getElem? ha)
    obtain ⟨s', hs', rfl⟩ := hmem (List.mem_of_getElem? hb)
    obtain ⟨e, he, rfl⟩ := List.mem_map.mp hs
    simp only [link_name, score_name] at hij ⊢
    have hreg : s'.function.name ∈ all.map (·.function.name) := List.mem_map_of_mem hs'
    rw [mem_dependencies_link, dependsOn_iff, mem_calls_score, score_name, ne_eq, ne_eq, ← hij]
    constructor
    · rintro ⟨-, hne, span, hspan, hcall⟩
      exact ⟨hne, span, mem_spans.mpr ⟨e, he, rfl, hspan⟩, hcall⟩
    · rintro ⟨hne, span, hspan, hcall⟩
      obtain ⟨e', he', hname, hspan'⟩ := mem_spans.mp hspan
      obtain rfl := List.inj_on_of_nodup_map (entries_nodup t) he' he hname
      exact ⟨hreg, hne, span, hspan', hcall⟩
  · intro a ha b hb
    obtain ⟨s, hs, rfl⟩ := hmem ha
    obtain ⟨s', hs', rfl⟩ := hmem hb
    exact mem_dependencies_iff_mem_dependents hall hs hs'
  · intro name entry
    refine (Graph.get?_ofFunctions_iff (functions_nodup hall)).trans ?_
    simp only [hasEdges_iff]
    rfl
  · refine (Graph.edgeCount_ofFunctions (functions_nodup hall)).trans ?_
    exact sum_dependencies_eq_sum_dependents all

end Dependencies

end ScriptSplit
