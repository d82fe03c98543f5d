import Mathlib
import ScriptSplit.Report.Encoding

/-!
# The strings of a report

What a report tells in words is what its JSON holds: the strings in it and the names of its fields, at any
depth. A property of strings holds of all of them if it holds of the names of fields and of the strings of
each part.

* `Json.texts`: the strings of a value; `Json.Spells`: all of them have a property.
* `fieldNames`: the names of fields that a report may have.
* `spells_function` and its like: the parts of a report; **`spells_result`**: the whole result of a file.
-/

namespace ScriptSplit

open Script (Unresolved)

namespace Json

mutual

/-- The strings of a value, with the names of its fields, in order. -/
def texts : Json → List String
  | null => []
  | bool _ => []
  | number _ => []
  | string s => [s]
  | array items => textsOfItems items
  | object fields => textsOfFields fields

/-- The strings of the items of an array. -/
def textsOfItems : List Json → List String
  | [] => []
  | x :: xs => texts x ++ textsOfItems xs

/-- The strings of the fields of an object. -/
def textsOfFields : List (String × Json) → List String
  | [] => []
  | (key, x) :: xs => key :: texts x ++ textsOfFields xs

end

/-- Every string of the value has the property. -/
def Spells (P : String → Prop) (j : Json) : Prop := ∀ x ∈ j.texts, P x

variable {P : String → Prop}

@[simp] theorem spells_null : Spells P .null := by simp [Spells, texts]

@[simp] theorem spells_bool (b : Bool) : Spells P (.bool b) := by simp [Spells, texts]

@[simp] theorem spells_int (n : Int) : Spells P (.int n) := by simp [Spells, Json.int, texts]

@[simp] theorem spells_string (s : String) : Spells P (.string s) ↔ P s := by simp [Spells, texts]

@[simp] theorem spells_array (items : List Json) : Spells P (.array items) ↔ ∀ x ∈ items, Spells P x := by
  rw [Spells, texts]
  induction items with
  | nil => simp [textsOfItems]
  | cons x xs ih => rw [textsOfItems, List.forall_mem_append, List.forall_mem_cons, ih, Spells]

@[simp] theorem spells_object (fields : List (String × Json)) :
    Spells P (.object fields) ↔ ∀ p ∈ fields, P p.1 ∧ Spells P p.2 := by
  rw [Spells, texts]
  induction fields with
  | nil => simp [textsOfFields]
  | cons p xs ih =>
    rw [textsOfFields, List.cons_append, List.forall_mem_cons, List.forall_mem_append, List.forall_mem_cons, ih,
      Spells, and_assoc]

theorem spells_listing {α : Type} {encode : α → Json} {l : Listing α} (h : ∀ a ∈ l.items, Spells P (encode a)) :
    Spells P (Listing.toJson encode l) := by
  cases l with
  | none => exact spells_null
  | some items =>
    rw [Listing.toJson, spells_array, List.forall_mem_map]
    exact h

theorem spells_names {l : Listing String} (h : ∀ x ∈ l.items, P x) : Spells P (namesJson l) :=
  spells_listing fun x hx => (spells_string x).mpr (h x hx)

theorem spells_dict {α : Type} {encode : α → Json} {d : Option (Dict α)}
    (h : ∀ p ∈ d.getD [], P p.1 ∧ Spells P (encode p.2)) : Spells P (dictJson encode d) := by
  cases d with
  | none => exact spells_null
  | some entries =>
    rw [dictJson, dict, spells_object, List.forall_mem_map]
    exact h

end Json

/-- The names of the fields that the result of a file may have. -/
def fieldNames : List String :=
  ["report", "callSites",
    "path", "summary", "functions", "modules", "dependencies", "problems", "globalUsage", "platformUsage",
    "elementIds", "cycles", "unresolved",
    "totalFunctions", "resolvedFunctions", "functionsWithDependencies", "independentFunctions", "totalEdges",
    "mostComplexFunction", "maxComplexity", "mostDependentFunction", "maxDependencies", "problemCount",
    "name", "kind", "sourceOffset", "line", "dependents", "usesGlobalState", "usesPlatformAPI", "complexity",
    "resolved",
    "functionName", "issueKind", "metric", "suggestion", "reason"]

/-! ## The parts of a report -/

section Parts

variable {P : String → Prop} (hfields : ∀ key ∈ fieldNames, P key)
include hfields

theorem spells_function {f : Function} (hname : P f.name) (hkind : P f.kind.label)
    (hdependencies : ∀ x ∈ f.dependencies.items, P x) (hdependents : ∀ x ∈ f.dependents.items, P x) :
    f.toJson.Spells P := by
  simp only [fieldNames, List.forall_mem_cons] at hfields
  simp [Function.toJson, hfields, hname, hkind, Json.spells_names hdependencies, Json.spells_names hdependents]

theorem spells_graphEntry {e : GraphEntry} (hdependencies : ∀ x ∈ e.dependencies.items, P x)
    (hdependents : ∀ x ∈ e.dependents.items, P x) : e.toJson.Spells P := by
  simp only [fieldNames, List.forall_mem_cons] at hfields
  simp [GraphEntry.toJson, hfields, Json.spells_names hdependencies, Json.spells_names hdependents]

theorem spells_problem {p : Problem} (hname : P p.functionName) (hkind : P p.issueKind.label)
    (hsuggestion : P p.suggestion) : p.toJson.Spells P := by
  simp only [fieldNames, List.forall_mem_cons] at hfields
  simp [Problem.toJson, hfields, hname, hkind, hsuggestion]

theorem spells_unresolved {u : Unresolved} (hname : P u.name) (hreason : P u.reason) :
    (unresolvedJson u).Spells P := by
  simp only [fieldNames, List.forall_mem_cons] at hfields
  simp [unresolvedJson, hfields, hname, hreason]

/-- A record that no function holds is not told. -/
theorem spells_summary {s : Summary} (hcomplex : s.mostComplexFunction ≠ "" → P s.mostComplexFunction)
    (hdependent : s.mostDependentFunction ≠ "" → P s.mostDependentFunction) : s.toJson.Spells P := by
  simp only [fieldNames, List.forall_mem_cons] at hfields
  unfold Summary.toJson textField
  split_ifs with h₁ h₂ h₂
  · simp [hfields]
  · simp [hfields, hdependent h₂]
  · simp [hfields, hcomplex h₁]
  · simp [hfields, hcomplex h₁, hdependent h₂]

theorem spells_report {r : FileReport} (hpath : P r.path) (hsummary : r.summary.toJson.Spells P)
    (hfunctions : ∀ f ∈ r.functions.items, f.toJson.Spells P)
    (hmodules : ∀ p ∈ r.modules.getD [], P p.1 ∧ ∀ x ∈ p.2.items, P x)
    (hgraph : ∀ p ∈ r.dependencies.getD [], P p.1 ∧ p.2.toJson.Spells P)
    (hproblems : ∀ p ∈ r.problems.items, p.toJson.Spells P)
    (hglobal : ∀ x ∈ r.globalUsage.items, P x) (hplatform : ∀ x ∈ r.platformUsage.items, P x)
    (hids : ∀ x ∈ r.elementIds.items, P x) (hcycles : ∀ group ∈ r.cycles, ∀ x ∈ Listing.items group, P x)
    (hunresolved : ∀ u ∈ r.unresolved, (unresolvedJson u).Spells P) : r.toJson.Spells P := by
  have hfunctions' := Json.spells_listing hfunctions
  have hproblems' := Json.spells_listing hproblems
  have hgraph' := Json.spells_dict hgraph
  have hmodules' : (dictJson namesJson r.modules).Spells P :=
    Json.spells_dict fun p hp => ⟨(hmodules p hp).1, Json.spells_names (hmodules p hp).2⟩
  have hgroups : ∀ group ∈ r.cycles, (namesJson group).Spells P :=
    fun group hgroup => Json.spells_names (hcycles group hgroup)
  simp only [fieldNames, List.forall_mem_cons] at hfields
  unfold FileReport.toJson
  split_ifs <;> simp +contextual [hfields, hpath, hsummary, hfunctions', hmodules', hgraph', hproblems',
    Json.spells_names hglobal, Json.spells_names hplatform, Json.spells_names hids, hgroups, hunresolved]

/-- **The strings of a result** are those of its report, the names of functions and those of their calls. -/
theorem spells_result {r : FileResult} (hreport : r.report.toJson.Spells P)
    (hsites : ∀ p ∈ r.callSites.getD [], P p.1 ∧ ∀ x ∈ p.2.items, P x) : r.toJson.Spells P := by
  have htable : (dictJson namesJson r.callSites).Spells P :=
    Json.spells_dict fun p hp => ⟨(hsites p hp).1, Json.spells_names (hsites p hp).2⟩
  simp only [fieldNames, List.forall_mem_cons] at hfields
  simp [FileResult.toJson, hfields, hreport, htable]

end Parts

end ScriptSplit
