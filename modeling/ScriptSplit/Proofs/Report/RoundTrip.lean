import Mathlib
import ScriptSplit.Analysis.File
import ScriptSplit.Proofs.Format.Json.Reader
import ScriptSplit.Proofs.Module.Partition
import ScriptSplit.Proofs.Registry.Edges
import ScriptSplit.Proofs.Text.Sorted
import ScriptSplit.Report.Decoding
import ScriptSplit.Report.Encoding

/-!
# Results that are read back

Whatever is read from the JSON of a result of the analysis is that result. Reading may refuse, since
only integers of 64 bits are read, but it never gives another result.

* `Exact`: what is read is what was written; one lemma for each part of a report.
* `FileResult.Canonical`: labels stand for their own kinds, and tables are in key order.
* **`exact_result`**: a canonical result is read back or refused.
* `canonical_analyze`: the analysis gives canonical results.
-/

namespace ScriptSplit

open Script (Unresolved)

/-! ## Values -/

/-- Whatever is read from the JSON of a value is the value. -/
def Exact {α : Type} (encode : α → Json) (decode : Json → Option α) (a : α) : Prop :=
  ∀ b, decode (encode a) = some b → b = a

namespace Json

@[simp] theorem text?_string (s : String) : text? (.string s) = some s := rfl

@[simp] theorem bool?_bool (b : Bool) : bool? (.bool b) = some b := rfl

@[simp] theorem isRecord_object (fields : List (String × Json)) : isRecord (.object fields) = true := rfl

theorem exact_int (n : Int) : Exact int int? n := by
  intro m h
  rw [int, int?, literalInt?_toString] at h
  simp only [Option.bind_eq_bind, Option.bind_some] at h
  split_ifs at h
  exact (Option.some.inj h).symm

theorem mapM_exact {α β : Type} {decode : α → Option β} {value : α → β} {l : List α} {r : List β}
    (h : ∀ a ∈ l, ∀ b, decode a = some b → b = value a) (hr : l.mapM decode = some r) : r = l.map value := by
  induction l generalizing r with
  | nil => exact (Option.some.inj hr).symm
  | cons a l ih =>
    rw [List.mapM_cons] at hr
    obtain ⟨b, hb, hr⟩ := Option.bind_eq_some_iff.mp hr
    obtain ⟨bs, hbs, hr⟩ := Option.bind_eq_some_iff.mp hr
    cases hr
    rw [h a List.mem_cons_self b hb, ih (fun a' ha' => h a' (List.mem_cons_of_mem a ha')) hbs]
    rfl

theorem exact_listing {α : Type} {encode : α → Json} {decode : Json → Option α} {items : List α}
    (h : ∀ a ∈ items, Exact encode decode a) :
    Exact (Listing.toJson encode) (listing? decode) (some items) := by
  intro l hl
  obtain ⟨as, has, rfl⟩ := Option.map_eq_some_iff.mp hl
  rw [List.mapM_map] at has
  rw [mapM_exact h has, List.map_id']

theorem exact_names (l : Listing String) : Exact namesJson names? l := by
  cases l with
  | none => exact fun m h => (Option.some.inj h).symm
  | some items => exact exact_listing fun s _ _ h => (Option.some.inj h).symm

/-- A table in key order is read back with its order. -/
theorem exact_dict {α : Type} {encode : α → Json} {decode : Json → Option α} {d : Dict α} (hd : d.Ordered)
    (h : ∀ p ∈ d, Exact encode decode p.2) : Exact (dictJson encode) (dict? decode) (some d) := by
  intro e he
  obtain ⟨pairs, hpairs, he⟩ := Option.bind_eq_some_iff.mp he
  cases he
  rw [List.mapM_map] at hpairs
  have hpair : ∀ p ∈ d, ∀ q, (decode (encode p.2)).map (fun v => (p.1, v)) = some q → q = p := by
    intro p hp q hq
    obtain ⟨v, hv, rfl⟩ := Option.map_eq_some_iff.mp hq
    rw [h p hp v hv]
  rw [mapM_exact hpair hpairs, List.map_id', Dict.ofList_eq_self hd]

/-! ## Fields -/

/-- The value of the last field of a name, whatever its case. -/
def lastField? (key : String) (fields : List (String × Json)) : Option Json :=
  (fields.reverse.find? fun p => lowerCase p.1 == lowerCase key).map Prod.snd

theorem member_object (key : String) (fields : List (String × Json)) :
    member key (.object fields) = (lastField? key fields).getD .null := by
  simp only [member, lastField?]
  cases fields.reverse.find? fun p => lowerCase p.1 == lowerCase key with
  | none => rfl
  | some p => rfl

@[simp] theorem lastField?_nil (key : String) : lastField? key [] = none := rfl

@[simp] theorem lastField?_append (key : String) (l m : List (String × Json)) :
    lastField? key (l ++ m) = (lastField? key m).or (lastField? key l) := by
  simp only [lastField?]
  rw [List.reverse_append, List.find?_append]
  cases m.reverse.find? fun p => lowerCase p.1 == lowerCase key with
  | none => rfl
  | some p => rfl

@[simp] theorem lastField?_cons (key : String) (p : String × Json) (l : List (String × Json)) :
    lastField? key (p :: l) =
      (lastField? key l).or (if lowerCase p.1 = lowerCase key then some p.2 else none) := by
  rw [← List.singleton_append, lastField?_append]
  congr 1
  by_cases hp : lowerCase p.1 = lowerCase key
  · simp [lastField?, hp]
  · simp [lastField?, hp]

@[simp] theorem lastField?_ite (key : String) (c : Prop) [Decidable c] (l m : List (String × Json)) :
    lastField? key (if c then l else m) = if c then lastField? key l else lastField? key m :=
  apply_ite (lastField? key) c l m

/-- A list that was left out is read as the empty one. -/
theorem exact_optional {α : Type} {encode : α → Json} {decode : Json → Option α} {items : List α}
    (h : ∀ a ∈ items, Exact encode decode a) {l : Listing α}
    (hl : listing? decode ((if items = [] then none else some (.array (items.map encode))).getD .null) =
      some l) : l.items = items := by
  split_ifs at hl with hitems
  · rw [hitems, ← Option.some.inj hl]
    rfl
  · rw [exact_listing h l hl]
    rfl

/-- A text that was left out is read as the empty one. -/
@[simp] theorem text?_optional (s : String) :
    text? ((if s = "" then none else some (.string s)).getD .null) = some s := by
  split_ifs with hs
  · rw [hs]
    rfl
  · rfl

end Json

/-! ## Records -/

theorem exact_function {f : Function} (hkind : .ofLabel f.kind.label = f.kind) :
    Exact Function.toJson Function.ofJson? f := by
  intro g h
  simp +decide [Function.ofJson?, Function.toJson, Json.member_object, Option.bind_eq_some_iff] at h
  obtain ⟨offset, hoffset, line, hline, deps, hdeps, dependents, hdependents, complexity, hcomplexity,
    rfl⟩ := h
  rw [hkind, Json.exact_int _ _ hoffset, Json.exact_int _ _ hline, Json.exact_names _ _ hdeps,
    Json.exact_names _ _ hdependents, Json.exact_int _ _ hcomplexity]

theorem exact_graphEntry (e : GraphEntry) : Exact GraphEntry.toJson GraphEntry.ofJson? e := by
  intro e' h
  simp +decide [GraphEntry.ofJson?, GraphEntry.toJson, Json.member_object, Option.bind_eq_some_iff] at h
  obtain ⟨deps, hdeps, dependents, hdependents, complexity, hcomplexity, rfl⟩ := h
  rw [Json.exact_names _ _ hdeps, Json.exact_names _ _ hdependents, Json.exact_int _ _ hcomplexity]

theorem exact_problem {p : Problem} (hkind : .ofLabel p.issueKind.label = p.issueKind) :
    Exact Problem.toJson Problem.ofJson? p := by
  intro q h
  simp +decide [Problem.ofJson?, Problem.toJson, Json.member_object, Option.bind_eq_some_iff] at h
  obtain ⟨metric, hmetric, rfl⟩ := h
  rw [hkind, Json.exact_int _ _ hmetric]

theorem exact_unresolved (u : Unresolved) : Exact unresolvedJson unresolvedOfJson? u := by
  intro v h
  simp +decide [unresolvedOfJson?, unresolvedJson, Json.member_object] at h
  exact h.symm

theorem exact_summary (s : Summary) : Exact Summary.toJson Summary.ofJson? s := by
  intro t h
  simp +decide [Summary.ofJson?, Summary.toJson, textField, Json.member_object, Option.bind_eq_some_iff] at h
  obtain ⟨total, htotal, resolved, hresolved, having, hhaving, independent, hindependent, edges, hedges,
    complexity, hcomplexity, dependencies, hdependencies, problems, hproblems, rfl⟩ := h
  rw [Json.exact_int _ _ htotal, Json.exact_int _ _ hresolved, Json.exact_int _ _ hhaving,
    Json.exact_int _ _ hindependent, Json.exact_int _ _ hedges, Json.exact_int _ _ hcomplexity,
    Json.exact_int _ _ hdependencies, Json.exact_int _ _ hproblems]

/-! ## Results -/

/-- Labels stand for their own kinds, and tables are in key order. -/
structure FileResult.Canonical (r : FileResult) : Prop where
  functions : ∃ functions, r.report.functions = some functions ∧
    ∀ f ∈ functions, .ofLabel f.kind.label = f.kind
  problems : ∃ problems, r.report.problems = some problems ∧
    ∀ p ∈ problems, .ofLabel p.issueKind.label = p.issueKind
  modules : ∃ d : Dict (Listing String), r.report.modules = some d ∧ d.Ordered
  dependencies : ∃ d : Graph, r.report.dependencies = some d ∧ Dict.Ordered d
  callSites : ∃ d : Dict (Listing String), r.callSites = some d ∧ d.Ordered

theorem exact_report {r : FileResult} (hr : r.Canonical) :
    Exact FileReport.toJson FileReport.ofJson? r.report := by
  obtain ⟨functions, hfunctions, hkinds⟩ := hr.functions
  obtain ⟨problems, hproblems, hissues⟩ := hr.problems
  obtain ⟨modules, hmodules, hmoduleOrder⟩ := hr.modules
  obtain ⟨graph, hgraph, hgraphOrder⟩ := hr.dependencies
  have hfunctions' := Json.exact_listing fun f hf => exact_function (hkinds f hf)
  have hproblems' := Json.exact_listing fun p hp => exact_problem (hissues p hp)
  have hmodules' := Json.exact_dict hmoduleOrder fun p _ => Json.exact_names p.2
  have hgraph' := Json.exact_dict hgraphOrder fun p _ => exact_graphEntry p.2
  rw [← hfunctions] at hfunctions'
  rw [← hproblems] at hproblems'
  rw [← hmodules] at hmodules'
  rw [← hgraph] at hgraph'
  intro t h
  simp +decide [FileReport.ofJson?, FileReport.toJson, Json.member_object, Option.bind_eq_some_iff] at h
  obtain ⟨summary, hs, fs, hfs, ms, hms, gs, hgs, ps, hps, globals, hglobals, platform, hplatform, ids, hids,
    cycles, hcycles, unresolved, hunresolved, rfl⟩ := h
  rw [exact_summary _ _ hs, hfunctions' _ hfs, hmodules' _ hms, hgraph' _ hgs, hproblems' _ hps,
    Json.exact_names _ _ hglobals, Json.exact_names _ _ hplatform, Json.exact_names _ _ hids,
    Json.exact_optional (fun l _ => Json.exact_names l) hcycles,
    Json.exact_optional (fun u _ => exact_unresolved u) hunresolved]

/-- **A canonical result is read back or refused.** -/
theorem exact_result {r : FileResult} (hr : r.Canonical) : Exact FileResult.toJson FileResult.ofJson? r := by
  obtain ⟨sites, hsites, hsiteOrder⟩ := hr.callSites
  have hsites' := Json.exact_dict hsiteOrder fun p _ => Json.exact_names p.2
  rw [← hsites] at hsites'
  intro t h
  simp +decide [FileResult.ofJson?, FileResult.toJson, Json.member_object, Option.bind_eq_some_iff] at h
  obtain ⟨-, report, hreport, calls, hcalls, rfl⟩ := h
  rw [exact_report hr _ hreport, hsites' _ hcalls]

/-! ## Texts -/

section Texts

variable {n : Nat}

namespace Json

theorem readable_listing {α : Type} {encode : α → Json} (h : ∀ a, Readable n (encode a)) (l : Listing α) :
    Readable (n + 1) (Listing.toJson encode l) := by
  cases l with
  | none => exact readable_null
  | some items => simp [Listing.toJson, h]

theorem readable_dict {α : Type} {encode : α → Json} (h : ∀ a, Readable n (encode a)) (d : Option (Dict α)) :
    Readable (n + 1) (dictJson encode d) := by
  cases d with
  | none => exact readable_null
  | some entries =>
    rw [dictJson, dict, readable_object, List.forall_mem_map]
    exact fun p _ => h p.2

@[simp] theorem readable_names (l : Listing String) : Readable (n + 1) (namesJson l) :=
  readable_listing (fun _ => readable_string _) l

end Json

theorem readable_function (f : Function) : f.toJson.Readable (n + 2) := by simp [Function.toJson]

theorem readable_graphEntry (e : GraphEntry) : e.toJson.Readable (n + 2) := by simp [GraphEntry.toJson]

theorem readable_problem (p : Problem) : p.toJson.Readable (n + 1) := by simp [Problem.toJson]

theorem readable_unresolved (u : Unresolved) : (unresolvedJson u).Readable (n + 1) := by simp [unresolvedJson]

theorem readable_summary (s : Summary) : s.toJson.Readable (n + 1) := by
  unfold Summary.toJson textField
  split_ifs <;> simp

theorem readable_report (r : FileReport) : r.toJson.Readable (n + 4) := by
  have hsummary := readable_summary (n := n + 2) r.summary
  have hfunctions := Json.readable_listing (readable_function (n := n)) r.functions
  have hgraph := Json.readable_dict (readable_graphEntry (n := n)) r.dependencies
  have hproblems := Json.readable_listing (readable_problem (n := n + 1)) r.problems
  have hmodules := Json.readable_dict (Json.readable_names (n := n + 1)) r.modules
  unfold FileReport.toJson
  split_ifs <;> simp [hsummary, hfunctions, hgraph, hproblems, hmodules, readable_unresolved]

theorem readable_result (r : FileResult) : r.toJson.Readable (n + 5) := by
  have hreport := readable_report (n := n) r.report
  have hsites := Json.readable_dict (Json.readable_names (n := n + 2)) r.callSites
  simp [FileResult.toJson, hreport, hsites]

end Texts

/-! ## The analysis -/

/-- The kinds of the declarations that are looked for. -/
def Kind.forms : List Kind := [.declaration, .expression, .arrow, .method]

/-- The rules that flag functions. -/
def IssueKind.rules : List IssueKind := [.highDependencyCount, .criticalDependency, .mixedResponsibility, .highComplexity]

theorem Kind.ofLabel_of_mem_forms : ∀ k ∈ Kind.forms, .ofLabel k.label = k := by decide

theorem IssueKind.ofLabel_of_mem_rules : ∀ k ∈ IssueKind.rules, .ofLabel k.label = k := by decide

theorem kind_of_mem_candidates {t : Bytes} {c : Kind × Nat × Bytes} (h : c ∈ Script.candidates t) :
    c.1 ∈ Kind.forms := by
  simp only [Script.candidates, List.mem_append, List.mem_map] at h
  obtain ((⟨_, -, rfl⟩ | ⟨_, -, rfl⟩) | ⟨_, -, rfl⟩) | ⟨_, -, rfl⟩ := h <;> simp [Kind.forms]

theorem kind_link {t : Bytes} {globals patterns : List String} {all : List Dependencies.Scored}
    (e : Script.OutlineEntry) :
    ((Dependencies.score t globals patterns e).link all).kind = e.declaration.kind := by
  unfold Dependencies.score
  cases e.span with
  | error err => rfl
  | ok span => rfl

theorem kind_of_mem_functions {t : Bytes} {globals patterns : List String} {f : Function}
    (h : f ∈ (Dependencies.ofOutline t (.ofText t) globals patterns).functions) : f.kind ∈ Kind.forms := by
  obtain ⟨s, hs, rfl⟩ := List.mem_map.mp h
  obtain ⟨e, he, rfl⟩ := List.mem_map.mp hs
  obtain ⟨d, hd, rfl⟩ := List.mem_map.mp he
  obtain ⟨c, hc, rfl⟩ := exists_of_mem_keepFirst hd
  rw [kind_link]
  exact kind_of_mem_candidates hc

/-- A finding names a function of the registry, a rule and the advice that goes with it. -/
theorem exists_of_mem_problems {limits : Thresholds} {functions : List Function} {p : Problem}
    (h : p ∈ problems limits functions) : (∃ f ∈ functions, p.functionName = f.name) ∧
      p.issueKind ∈ IssueKind.rules ∧ p.suggestion = p.issueKind.suggestion := by
  obtain ⟨f, hf, h⟩ := List.mem_flatMap.mp h
  obtain ⟨⟨kind, metric⟩, hkind, rfl⟩ := List.mem_map.mp h
  simp only [issuesOf, List.mem_append, List.mem_ite_nil_right, List.mem_singleton] at hkind
  refine ⟨⟨f, hf, rfl⟩, ?_, rfl⟩
  obtain ((⟨-, h⟩ | ⟨-, h⟩) | ⟨-, h⟩) | ⟨-, h⟩ := hkind <;> cases h <;> simp [IssueKind.rules]

/-- The analysis gives canonical results. -/
theorem canonical_analyze {cfg : Config} {path : String} {content : Bytes} {r : FileResult}
    (h : analyze cfg path content = .ok r) : r.Canonical := by
  rw [eq_resultOf_of_analyze h]
  exact
    { functions := ⟨_, rfl, fun f hf => Kind.ofLabel_of_mem_forms _ (kind_of_mem_functions hf)⟩
      problems := ⟨_, rfl, fun p hp => IssueKind.ofLabel_of_mem_rules _ (exists_of_mem_problems hp).2.1⟩
      modules := ⟨_, rfl, (Classifier.ordered_modules _ _).map some⟩
      dependencies := ⟨_, rfl, Dict.ofList_ordered _⟩
      callSites := ⟨_, rfl, (Dict.ofList_ordered _).map some⟩ }

end ScriptSplit
