import Mathlib
import ScriptSplit.Proofs.Report.RoundTrip
import ScriptSplit.Report.Directory

/-!
# Reports that are read back in full

A report whose integers have 64 bits is read back from its JSON, field by field: no field is refused,
and lists and tables that were never filled in stay so.

* `Restores`: a value is read back; one lemma for each part of a report.
* `FileReport.Storable`, `ProjectReport.Storable`: what the fields of a report hold.
* **`restores_fileReport`**, **`restores_index`**: the files of a report directory.
-/

namespace ScriptSplit

open Script (Unresolved)

/-- Reading the JSON of a value gives the value. -/
def Restores {α : Type} (encode : α → Json) (decode : Json → Option α) (a : α) : Prop :=
  decode (encode a) = some a

namespace Json

theorem restores_int {n : Int} (h : Word64.fits n = true) : Restores int int? n := by
  unfold Restores
  rw [int, int?, literalInt?_toString]
  simp [h]

theorem mapM_restores {α β γ : Type} {encode : α → β} {decode : β → Option γ} {value : α → γ} {l : List α}
    (h : ∀ a ∈ l, decode (encode a) = some (value a)) :
    (l.map encode).mapM decode = some (l.map value) := by
  induction l with
  | nil => rfl
  | cons a l ih =>
    have hl := ih fun a' ha' => h a' (List.mem_cons_of_mem a ha')
    rw [List.map_cons, List.mapM_cons, h a List.mem_cons_self, hl]
    rfl

theorem restores_listing {α : Type} {encode : α → Json} {decode : Json → Option α} {l : Listing α}
    (h : ∀ a ∈ l.items, Restores encode decode a) :
    Restores (Listing.toJson encode) (listing? decode) l := by
  cases l with
  | none => rfl
  | some items =>
    have hitems : (items.map encode).mapM decode = some (items.map fun a => a) := mapM_restores h
    rw [List.map_id'] at hitems
    change Option.map some ((items.map encode).mapM decode) = _
    rw [hitems]
    rfl

theorem restores_names (l : Listing String) : Restores namesJson names? l :=
  restores_listing fun _ _ => rfl

/-- A table in key order is read back with its order. -/
theorem restores_dict {α : Type} {encode : α → Json} {decode : Json → Option α} {o : Option (Dict α)}
    (hordered : Dict.Ordered (o.getD [])) (h : ∀ p ∈ o.getD [], Restores encode decode p.2) :
    Restores (dictJson encode) (dict? decode) o := by
  cases o with
  | none => rfl
  | some d =>
    have hpairs : (d.map fun p => (p.1, encode p.2)).mapM (fun p => (decode p.2).map fun v => (p.1, v)) =
        some (d.map fun p => p) := by
      refine mapM_restores fun p hp => ?_
      have hvalue : decode (encode p.2) = some p.2 := h p hp
      simp only [hvalue]
      rfl
    unfold Restores dictJson dict dict?
    simp only [hpairs]
    rw [List.map_id']
    exact congrArg (fun d => some (some d)) (Dict.ofList_eq_self hordered)

/-- A list that is left out when it is empty is read as the empty one. -/
theorem restores_optional {α : Type} {encode : α → Json} {decode : Json → Option α} {items : List α}
    (h : ∀ a ∈ items, Restores encode decode a) :
    (listing? decode ((if items = [] then none else some (.array (items.map encode))).getD .null)).map
      Listing.items = some items := by
  split_ifs with hitems
  · rw [hitems]
    rfl
  · have hlist := restores_listing (l := some items) h
    exact congrArg (Option.map Listing.items) hlist

end Json

/-! ## Records -/

/-- The integers of a function have 64 bits, and its label stands for its own kind. -/
structure Function.Storable (f : Function) : Prop where
  kind : .ofLabel f.kind.label = f.kind
  sourceOffset : Word64.fits f.sourceOffset = true
  line : Word64.fits f.line = true
  complexity : Word64.fits f.complexity = true

theorem restores_function {f : Function} (h : f.Storable) : Restores Function.toJson Function.ofJson? f := by
  have hoffset : (Json.int f.sourceOffset).int? = some f.sourceOffset := Json.restores_int h.sourceOffset
  have hline : (Json.int f.line).int? = some f.line := Json.restores_int h.line
  have hcomplexity : (Json.int f.complexity).int? = some f.complexity := Json.restores_int h.complexity
  have hdependencies : (namesJson f.dependencies).names? = some f.dependencies := Json.restores_names _
  have hdependents : (namesJson f.dependents).names? = some f.dependents := Json.restores_names _
  unfold Restores
  simp +decide [Function.ofJson?, Function.toJson, Json.member_object, h.kind, hoffset, hline, hcomplexity,
    hdependencies, hdependents]

theorem restores_graphEntry {e : GraphEntry} (h : Word64.fits e.complexity = true) :
    Restores GraphEntry.toJson GraphEntry.ofJson? e := by
  have hcomplexity : (Json.int e.complexity).int? = some e.complexity := Json.restores_int h
  have hdependencies : (namesJson e.dependencies).names? = some e.dependencies := Json.restores_names _
  have hdependents : (namesJson e.dependents).names? = some e.dependents := Json.restores_names _
  unfold Restores
  simp +decide [GraphEntry.ofJson?, GraphEntry.toJson, Json.member_object, hcomplexity, hdependencies,
    hdependents]

/-- The measure of a finding has 64 bits, and its label stands for its own issue. -/
structure Problem.Storable (p : Problem) : Prop where
  issueKind : .ofLabel p.issueKind.label = p.issueKind
  metric : Word64.fits p.metric = true

theorem restores_problem {p : Problem} (h : p.Storable) : Restores Problem.toJson Problem.ofJson? p := by
  have hmetric : (Json.int p.metric).int? = some p.metric := Json.restores_int h.metric
  unfold Restores
  simp +decide [Problem.ofJson?, Problem.toJson, Json.member_object, h.issueKind, hmetric]

theorem restores_unresolved (u : Unresolved) : Restores unresolvedJson unresolvedOfJson? u := by
  unfold Restores
  simp +decide [unresolvedOfJson?, unresolvedJson, Json.member_object]

/-- The counters of a file have 64 bits. -/
structure Summary.Storable (s : Summary) : Prop where
  totalFunctions : Word64.fits s.totalFunctions = true
  resolvedFunctions : Word64.fits s.resolvedFunctions = true
  functionsWithDependencies : Word64.fits s.functionsWithDependencies = true
  independentFunctions : Word64.fits s.independentFunctions = true
  totalEdges : Word64.fits s.totalEdges = true
  maxComplexity : Word64.fits s.maxComplexity = true
  maxDependencies : Word64.fits s.maxDependencies = true
  problemCount : Word64.fits s.problemCount = true

theorem restores_summary {s : Summary} (h : s.Storable) : Restores Summary.toJson Summary.ofJson? s := by
  have hint : ∀ {n : Int}, Word64.fits n = true → (Json.int n).int? = some n := Json.restores_int
  unfold Restores
  simp +decide [Summary.ofJson?, Summary.toJson, textField, Json.member_object, hint h.totalFunctions,
    hint h.resolvedFunctions, hint h.functionsWithDependencies, hint h.independentFunctions,
    hint h.totalEdges, hint h.maxComplexity, hint h.maxDependencies, hint h.problemCount]

/-- What the fields of a file report hold: integers of 64 bits, labels that stand for their own kinds,
and tables in key order. -/
structure FileReport.Storable (r : FileReport) : Prop where
  summary : r.summary.Storable
  functions : ∀ f ∈ r.functions.items, f.Storable
  modules : Dict.Ordered (r.modules.getD [])
  dependencies : Dict.Ordered (r.dependencies.getD []) ∧
    ∀ p ∈ r.dependencies.getD [], Word64.fits p.2.complexity = true
  problems : ∀ p ∈ r.problems.items, p.Storable
  problemCount : Word64.fits r.problems.items.length = true

/-- **A file report is read back.** -/
theorem restores_fileReport {r : FileReport} (h : r.Storable) :
    Restores FileReport.toJson FileReport.ofJson? r := by
  have hsummary : Summary.ofJson? r.summary.toJson = some r.summary := restores_summary h.summary
  have hfunctions : (Listing.toJson Function.toJson r.functions).listing? Function.ofJson? = some r.functions :=
    Json.restores_listing fun f hf => restores_function (h.functions f hf)
  have hmodules : (dictJson namesJson r.modules).dict? Json.names? = some r.modules :=
    Json.restores_dict h.modules fun p _ => Json.restores_names p.2
  have hgraph : (dictJson GraphEntry.toJson r.dependencies).dict? GraphEntry.ofJson? = some r.dependencies :=
    Json.restores_dict h.dependencies.1 fun p hp => restores_graphEntry (h.dependencies.2 p hp)
  have hproblems : (Listing.toJson Problem.toJson r.problems).listing? Problem.ofJson? = some r.problems :=
    Json.restores_listing fun p hp => restores_problem (h.problems p hp)
  have hglobals : (namesJson r.globalUsage).names? = some r.globalUsage := Json.restores_names _
  have hplatform : (namesJson r.platformUsage).names? = some r.platformUsage := Json.restores_names _
  have hids : (namesJson r.elementIds).names? = some r.elementIds := Json.restores_names _
  have hcycles : ∀ l ∈ r.cycles, Restores namesJson Json.names? l := fun l _ => Json.restores_names l
  have hunresolved : ∀ u ∈ r.unresolved, Restores unresolvedJson unresolvedOfJson? u :=
    fun u _ => restores_unresolved u
  obtain ⟨cycles, hcycles, hcycles'⟩ := Option.map_eq_some_iff.mp (Json.restores_optional hcycles)
  obtain ⟨unresolved, hunresolved, hunresolved'⟩ := Option.map_eq_some_iff.mp (Json.restores_optional hunresolved)
  unfold Restores
  simp +decide [FileReport.ofJson?, FileReport.toJson, Json.member_object, hsummary, hfunctions, hmodules,
    hgraph, hproblems, hglobals, hplatform, hids, hcycles, hcycles', hunresolved, hunresolved']

theorem restores_warning {w : Warning} (h : .ofLabel w.kind.label = w.kind) :
    Restores Warning.toJson Warning.ofJson? w := by
  unfold Restores
  simp +decide [Warning.ofJson?, Warning.toJson, Json.member_object, h]

theorem restores_crossFileCall (c : CrossFileCall) :
    Restores CrossFileCall.toJson CrossFileCall.ofJson? c := by
  unfold Restores
  simp +decide [CrossFileCall.ofJson?, CrossFileCall.toJson, Json.member_object]

/-- The counters of a run have 64 bits. -/
structure ProjectSummary.Storable (s : ProjectSummary) : Prop where
  totalFiles : Word64.fits s.totalFiles = true
  analyzedFiles : Word64.fits s.analyzedFiles = true
  failedFiles : Word64.fits s.failedFiles = true
  totalFunctions : Word64.fits s.totalFunctions = true
  totalProblems : Word64.fits s.totalProblems = true

theorem restores_projectSummary {s : ProjectSummary} (h : s.Storable) :
    Restores ProjectSummary.toJson ProjectSummary.ofJson? s := by
  have hint : ∀ {n : Int}, Word64.fits n = true → (Json.int n).int? = some n := Json.restores_int
  have hcalls : (Listing.toJson CrossFileCall.toJson s.crossFileCalls).listing? CrossFileCall.ofJson? =
      some s.crossFileCalls := Json.restores_listing fun c _ => restores_crossFileCall c
  unfold Restores
  simp +decide [ProjectSummary.ofJson?, ProjectSummary.toJson, Json.member_object, hint h.totalFiles,
    hint h.analyzedFiles, hint h.failedFiles, hint h.totalFunctions, hint h.totalProblems, hcalls]

/-- What the fields of a project report hold. -/
structure ProjectReport.Storable (r : ProjectReport) : Prop where
  summary : r.summary.Storable
  warnings : ∀ w ∈ r.warnings.items, .ofLabel w.kind.label = w.kind
  files : ∀ f ∈ r.files.items, f.Storable
  fileCount : Word64.fits r.files.items.length = true

/-! ## The two files at the top -/

theorem restores_indexEntry {e : IndexEntry} (h : Word64.fits e.problems = true) :
    Restores IndexEntry.toJson IndexEntry.ofJson? e := by
  have hproblems : (Json.int e.problems).int? = some e.problems := Json.restores_int h
  unfold Restores
  simp +decide [IndexEntry.ofJson?, IndexEntry.toJson, Json.member_object, hproblems]

/-- **The summary file is read back.** -/
theorem restores_index {r : ReportIndex} (hsummary : r.summary.Storable)
    (hwarnings : ∀ w ∈ r.warnings.items, .ofLabel w.kind.label = w.kind)
    (hfiles : ∀ e ∈ r.files.items, Word64.fits e.problems = true) :
    Restores ReportIndex.toJson ReportIndex.ofJson? r := by
  have hsummary' : ProjectSummary.ofJson? r.summary.toJson = some r.summary :=
    restores_projectSummary hsummary
  have hwarnings' : (Listing.toJson Warning.toJson r.warnings).listing? Warning.ofJson? = some r.warnings :=
    Json.restores_listing fun w hw => restores_warning (hwarnings w hw)
  have hfiles' : (Listing.toJson IndexEntry.toJson r.files).listing? IndexEntry.ofJson? = some r.files :=
    Json.restores_listing fun e he => restores_indexEntry (hfiles e he)
  unfold Restores
  simp +decide [ReportIndex.ofJson?, ReportIndex.toJson, Json.member_object, hsummary', hwarnings', hfiles']

/-- **The metadata file is read back**, if the text of its moment is. -/
theorem restores_metadata {m : Metadata} (hmoment : Moment.parse? m.generatedAt.text = some m.generatedAt)
    (hfiles : Word64.fits m.filesAnalyzed = true) (hproblems : Word64.fits m.filesWithProblems = true) :
    Restores Metadata.toJson Metadata.ofJson? m := by
  have hfiles' : (Json.int m.filesAnalyzed).int? = some m.filesAnalyzed := Json.restores_int hfiles
  have hproblems' : (Json.int m.filesWithProblems).int? = some m.filesWithProblems :=
    Json.restores_int hproblems
  unfold Restores
  simp +decide [Metadata.ofJson?, Metadata.toJson, textField, momentOfJson?, Json.member_object, hmoment,
    hfiles', hproblems']

/-! ## Texts -/

section Texts

variable {n : Nat}

theorem readable_warning (w : Warning) : w.toJson.Readable (n + 1) := by simp [Warning.toJson]

theorem readable_crossFileCall (c : CrossFileCall) : c.toJson.Readable (n + 1) := by simp [CrossFileCall.toJson]

theorem readable_projectSummary (s : ProjectSummary) : s.toJson.Readable (n + 3) := by
  have hcalls := Json.readable_listing (readable_crossFileCall (n := n)) s.crossFileCalls
  simp [ProjectSummary.toJson, hcalls]

theorem readable_indexEntry (e : IndexEntry) : e.toJson.Readable (n + 1) := by simp [IndexEntry.toJson]

theorem readable_index (r : ReportIndex) : r.toJson.Readable (n + 4) := by
  have hsummary := readable_projectSummary (n := n) r.summary
  have hwarnings := Json.readable_listing (readable_warning (n := n + 1)) r.warnings
  have hfiles := Json.readable_listing (readable_indexEntry (n := n + 1)) r.files
  simp [ReportIndex.toJson, hsummary, hwarnings, hfiles]

theorem readable_metadata (m : Metadata) : m.toJson.Readable (n + 1) := by
  unfold Metadata.toJson textField
  split_ifs <;> simp

end Texts

end ScriptSplit
