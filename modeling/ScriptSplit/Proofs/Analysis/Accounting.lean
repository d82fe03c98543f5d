import Mathlib
import ScriptSplit.Analysis.Project
import ScriptSplit.Proofs.Analysis.Pool
import ScriptSplit.Proofs.Disk.Path
import ScriptSplit.Proofs.Text.Sorted

/-!
# What a report says about each file

Every element of the file list becomes one file report or one warning, whatever the workers do and
whenever the run is cancelled. Without cancellation and without a cache the report is a function of the
files alone.

* `entryOf`: the file report or the warning of an outcome.
* `Accounted`, `ofOutcomes_accounted`: the lists and the counters of a report.
* `Analyzer.answer`, `Analyzer.answerAs`, `Analyzer.fresh`: what becomes of a file when no cache is asked.
* `Determined`, `determined_of_off`: the report without a cache.
* **`analyzeFiles_accounted`**: every run accounts for every file.
-/

namespace ScriptSplit

open Batch

/-! ## The entries of a report -/

/-- What a report makes of an outcome. -/
def entryOf (root : String) (o : Outcome FileError FileResult) : FileReport ⊕ Warning :=
  match o.slot with
  | .done r => .inl r.report
  | .failed e => .inr ⟨displayPath root o.path, warningKind e, e.message FileError.message⟩
  | .skipped =>
    .inr ⟨displayPath root o.path, .skipped, "analysis cancelled before this file was processed"⟩

/-- The number of paths that were skipped. -/
def skippedCount (outcomes : List (Outcome FileError FileResult)) : Nat := outcomes.countP (!·.started)

theorem getRight?_entryOf (root : String) (o : Outcome FileError FileResult) :
    (entryOf root o).getRight? = warning? root o := by
  unfold entryOf warning?
  cases o.slot with
  | done r => rfl
  | failed e => rfl
  | skipped => rfl

theorem map_report_resultsOf (root : String) (outcomes : List (Outcome FileError FileResult)) :
    (resultsOf outcomes).map (·.report) = (outcomes.map (entryOf root)).filterMap Sum.getLeft? := by
  rw [resultsOf, List.map_filterMap, List.filterMap_map]
  refine List.filterMap_congr fun o _ => ?_
  rw [Function.comp_apply, entryOf]
  cases o.slot with
  | done r => rfl
  | failed e => rfl
  | skipped => rfl

theorem filterMap_warning? (root : String) (outcomes : List (Outcome FileError FileResult)) :
    outcomes.filterMap (warning? root) = (outcomes.map (entryOf root)).filterMap Sum.getRight? := by
  rw [List.filterMap_map]
  exact List.filterMap_congr fun o _ => (getRight?_entryOf root o).symm

/-- Each outcome is a result, a failure or a skipped path. -/
theorem length_eq_of_outcomes (outcomes : List (Outcome FileError FileResult)) :
    outcomes.length = (resultsOf outcomes).length + (failures outcomes).length + skippedCount outcomes := by
  induction outcomes with
  | nil => rfl
  | cons o outcomes ih =>
    obtain ⟨path, slot⟩ := o
    cases slot <;> simp_all [resultsOf, failures, skippedCount, Outcome.started] <;> omega

theorem length_warnings (root : String) (outcomes : List (Outcome FileError FileResult)) :
    (outcomes.filterMap (warning? root)).length = (failures outcomes).length + skippedCount outcomes := by
  induction outcomes with
  | nil => rfl
  | cons o outcomes ih =>
    obtain ⟨path, slot⟩ := o
    cases slot with
    | done r =>
      rw [List.filterMap_cons_none rfl, ih]
      simp [failures, skippedCount, Outcome.started]
    | failed e =>
      rw [List.filterMap_cons_some (f := warning? root) rfl, List.length_cons, ih]
      simp [failures, skippedCount, Outcome.started]
      omega
    | skipped =>
      rw [List.filterMap_cons_some (f := warning? root) rfl, List.length_cons, ih]
      simp [failures, skippedCount, Outcome.started]
      omega

theorem foldr_add_eq_sum {α : Type} (measure : α → Int) (l : List α) :
    l.foldr (fun x n => measure x + n) 0 = (l.map measure).sum := by
  rw [List.sum, List.foldr_map]

/-- What a report on the outcomes of a list of files has to say. -/
structure Accounted (root : String) (files : List String) (outcomes : List (Outcome FileError FileResult))
    (report : ProjectReport) : Prop where
  /-- There is one outcome for each element of the list. -/
  paths : (outcomes.map (·.path)).Perm files
  /-- Each outcome is a file report or a warning, and there are no others. -/
  reports : report.files = some ((outcomes.map (entryOf root)).filterMap Sum.getLeft?)
  warnings : report.warnings = some ((outcomes.map (entryOf root)).filterMap Sum.getRight?)
  warningPaths : ∀ o ∈ outcomes, ∀ w, entryOf root o = .inr w → w.path = displayPath root o.path
  totalFiles : report.summary.totalFiles = files.length
  total : report.summary.totalFiles =
    report.summary.analyzedFiles + report.summary.failedFiles + skippedCount outcomes
  analyzed : report.summary.analyzedFiles = report.files.items.length
  warned : (report.warnings.items.length : Int) = report.summary.failedFiles + skippedCount outcomes
  incomplete : report.summary.incomplete = true ↔ 0 < skippedCount outcomes
  totalFunctions : report.summary.totalFunctions =
    (report.files.items.map (·.summary.totalFunctions)).sum
  totalProblems : report.summary.totalProblems =
    (report.files.items.map fun f => (f.problems.items.length : Int)).sum
  /-- A run over one file without a file report has its warning to show. -/
  single : files.length = 1 → report.files.items = [] → ∃ w, report.warnings.items = [w]

/-- **A report accounts for its outcomes.** -/
theorem ofOutcomes_accounted (root : String) (files : List String)
    (outcomes : List (Outcome FileError FileResult)) (h : outcomes.map (·.path) = sortStrings files) :
    Accounted root files outcomes (.ofOutcomes root outcomes) := by
  have hlen : outcomes.length = files.length := by
    rw [← length_sortStrings, ← h, List.length_map]
  have hcount := length_eq_of_outcomes outcomes
  have hwarn := length_warnings root outcomes
  have hfiles : (ProjectReport.ofOutcomes root outcomes).files.items = (resultsOf outcomes).map (·.report) := rfl
  have hwarnings : (ProjectReport.ofOutcomes root outcomes).warnings.items =
      outcomes.filterMap (warning? root) := rfl
  refine
    { paths := by rw [h]; exact sortStrings_perm files
      reports := congrArg some (map_report_resultsOf root outcomes)
      warnings := congrArg some (filterMap_warning? root outcomes)
      warningPaths := ?_
      totalFiles := congrArg Nat.cast hlen
      total := ?_
      analyzed := rfl
      warned := ?_
      incomplete := ?_
      totalFunctions := foldr_add_eq_sum _ _
      totalProblems := foldr_add_eq_sum _ _
      single := ?_ }
  · intro o _ w hw
    have hright := getRight?_entryOf root o
    rw [hw, Sum.getRight?_inr, warning?] at hright
    split at hright
    · cases hright
    · cases hright; rfl
    · cases hright; rfl
  · change (outcomes.length : Int) = ((resultsOf outcomes).map (·.report)).length + (failures outcomes).length + _
    rw [List.length_map]
    omega
  · rw [hwarnings]
    change _ = ((failures outcomes).length : Int) + _
    omega
  · change outcomes.any (fun o => !o.started) = true ↔ _
    rw [skippedCount, List.countP_pos_iff, List.any_eq_true]
  · intro hone hnone
    rw [hfiles, List.map_eq_nil_iff] at hnone
    rw [hwarnings]
    refine List.length_eq_one_iff.mp ?_
    rw [hnone, List.length_nil] at hcount
    omega

/-! ## Without a cache -/

namespace Analyzer

/-- The answer for a file when no cache is asked. -/
def answer (a : Analyzer) (root path : String) : Except (JobError FileError) FileResult :=
  match a.content path with
  | .error e => .error e
  | .ok content =>
    match analyze a.config (displayPath root path) content with
    | .error e => .error (.failed (.encoding e))
    | .ok r => .ok r

/-- The answer for a file that is shown under a name, when no cache is asked. -/
def answerAs (a : Analyzer) (display path : String) : Except (JobError FileError) FileResult :=
  match a.content path with
  | .error e => .error e
  | .ok content =>
    match analyze a.config display content with
    | .error e => .error (.failed (.encoding e))
    | .ok r => .ok r

/-- The outcome for a file when no cache is asked. -/
def fresh (a : Analyzer) (root path : String) : Outcome FileError FileResult :=
  ⟨path, .ofAnswer (a.answer root path)⟩

/-- Each path of a list with its entry when no cache is asked. -/
def entries (a : Analyzer) (root : String) (files : List String) : List (String × (FileReport ⊕ Warning)) :=
  (sortStrings files).map fun path => (path, entryOf root (a.fresh root path))

/-- The report on a list of files when no cache is asked. -/
def freshReport (a : Analyzer) (root : String) (files : List String) : ProjectReport :=
  .ofOutcomes root ((sortStrings files).map (a.fresh root))

/-- The analyzer with another number of workers. -/
def withWorkers (a : Analyzer) (workers : Int) : Analyzer :=
  { a with config := { a.config with scan := { a.config.scan with workers := workers } } }

theorem cached_off {a : Analyzer} (h : a.cache.enabled = false) (display : String) (content : Bytes)
    (s : RunState) : a.cached display content s = (none, s) := by
  unfold cached Cache.lookup
  rw [h]
  rfl

theorem analyzeFile_off {a : Analyzer} (h : a.cache.enabled = false) (display path : String) (s : RunState) :
    (a.analyzeFile display path s).1 = a.answerAs display path := by
  unfold analyzeFile answerAs
  cases a.content path with
  | error e => rfl
  | ok content =>
    simp only [cached_off h]
    cases analyze a.config display content with
    | error e => rfl
    | ok r => rfl

theorem job_off {a : Analyzer} (h : a.cache.enabled = false) (root path : String) (s : RunState) :
    (a.job root path s).1 = a.answer root path := analyzeFile_off h (displayPath root path) path s

theorem answer_congr {a : Analyzer} {source : Source} {path : String}
    (hread : source.read path = a.source.read path) (hsize : source.size? path = a.source.size? path)
    (root : String) : ({ a with source := source } : Analyzer).answer root path = a.answer root path := by
  have hcontent : ({ a with source := source } : Analyzer).content path = a.content path := by
    unfold content
    rw [hread, hsize]
  unfold answer
  rw [hcontent]

/-- A run that is not cancelled gives each file the answer that it has by itself. -/
theorem schedule?_fresh {a : Analyzer} (h : a.cache.enabled = false) {workers : Nat} {moves : List Move}
    (hmoves : .cancel ∉ moves) {root : String} {paths : List String} {s s' : RunState}
    {outcomes : List (Outcome FileError FileResult)}
    (hrun : schedule? workers (a.job root) moves paths s = some (outcomes, s')) :
    outcomes = paths.map (a.fresh root) := by
  obtain ⟨hpaths, -, hslots⟩ := schedule?_sound (I := fun _ => True) (fun _ _ _ _ => trivial) trivial hrun
  rw [← hpaths, List.map_map]
  refine (List.map_id outcomes).symm.trans (List.map_congr_left fun o ho => ?_)
  obtain ⟨-, hcancel⟩ | ⟨t, -, hslot⟩ := hslots o ho
  · exact absurd hcancel hmoves
  · rw [job_off h] at hslot
    obtain ⟨path, slot⟩ := o
    obtain rfl : slot = .ofAnswer (a.answer root path) := hslot
    rfl

theorem scheduled?_fresh {a : Analyzer} (h : a.cache.enabled = false) {cpus : Nat} {moves : List Move}
    (hmoves : .cancel ∉ moves) {root : String} {files : List String} {s s' : RunState} {report : ProjectReport}
    (hrun : a.scheduled? cpus moves root files s = some (report, s')) : report = a.freshReport root files := by
  obtain ⟨⟨outcomes, s₁⟩, hrun, hreport⟩ := Option.map_eq_some_iff.mp hrun
  rw [schedule?_fresh h hmoves hrun] at hreport
  exact (congrArg Prod.fst hreport).symm

/-! ## The order of the entries -/

theorem path_of_answer {a : Analyzer} {root path : String} {r : FileResult}
    (h : a.answer root path = .ok r) : r.report.path = displayPath root path := by
  unfold answer at h
  split at h
  · cases h
  case h_2 content hcontent =>
    split at h
    · cases h
    case h_2 r' hr =>
      cases h
      rw [eq_resultOf_of_analyze hr]
      rfl

/-- The path that an entry shows. -/
def entryPath : FileReport ⊕ Warning → String := Sum.elim (·.path) (·.path)

theorem entryPath_fresh (a : Analyzer) (root path : String) :
    entryPath (entryOf root (a.fresh root path)) = displayPath root path := by
  unfold fresh entryOf
  cases h : a.answer root path with
  | error e => rfl
  | ok r => exact path_of_answer h

end Analyzer

theorem displayPath_empty (path : String) : displayPath "" path = path := rfl

/-- A clean path below the root is shown without what all such paths start with. -/
theorem eq_append_displayPath {root path : String} (hroot : root ≠ "") (hclean : Path.clean path = path)
    (hbelow : Path.Below root path) : path = (if Path.isAbs root then "/" else "") ++
      (if Path.segments root = [] then "" else "/".intercalate (Path.segments root) ++ "/") ++
        displayPath root path := by
  obtain ⟨habs, rest, hne, hup, hsegs⟩ := hbelow
  have hnames := Path.isName_of_below hsegs
  have hparts := Path.parts_intercalate hne fun s hs => (hnames s hs).2.2
  have hdisplay : displayPath root path = "/".intercalate rest := by
    unfold displayPath
    rw [if_neg hroot, Path.rel?_of_below habs hne hsegs]
    simp only [hparts, if_neg hup, if_neg (Path.intercalate_ne_dot hne hnames)]
  rw [hdisplay]
  exact Path.eq_append_of_below habs hne hsegs hclean

theorem le_of_append_le {start a b : String} (h : start ++ a ≤ start ++ b) : a ≤ b := by
  refine String.not_lt.mp fun hlt => String.not_lt.mpr h ?_
  rw [String.lt_iff, String.toList_append, String.toList_append]
  exact List.append_left_lt hlt

/-- The paths are shown as they are, or they are clean and lie below the root. -/
def Shown (root : String) (files : List String) : Prop :=
  root = "" ∨ ∀ p ∈ files, Path.clean p = p ∧ Path.Below root p

theorem displayPath_le {root : String} {files : List String} (h : Shown root files) {p q : String}
    (hp : p ∈ files) (hq : q ∈ files) (hpq : p ≤ q) : displayPath root p ≤ displayPath root q := by
  by_cases hroot : root = ""
  · rw [hroot, displayPath_empty, displayPath_empty]
    exact hpq
  · obtain hempty | hbelow := h
    · exact absurd hempty hroot
    obtain ⟨hcp, hbp⟩ := hbelow p hp
    obtain ⟨hcq, hbq⟩ := hbelow q hq
    rw [eq_append_displayPath hroot hcp hbp, eq_append_displayPath hroot hcq hbq] at hpq
    exact le_of_append_le hpq

theorem entries_ordered (a : Analyzer) {root : String} {files : List String} (h : Shown root files) :
    (a.entries root files).Pairwise fun e e' => Analyzer.entryPath e.2 ≤ Analyzer.entryPath e'.2 := by
  unfold Analyzer.entries
  rw [List.pairwise_map]
  have hsorted := sortStrings_sorted files
  rw [List.pairwise_iff_forall_sublist] at hsorted ⊢
  intro p q hsub
  have hp : p ∈ files := mem_sortStrings.mp (hsub.subset List.mem_cons_self)
  have hq : q ∈ files := mem_sortStrings.mp (hsub.subset (List.mem_cons_of_mem _ List.mem_cons_self))
  simp only [Analyzer.entryPath_fresh]
  exact displayPath_le h hp hq (hsorted hsub)

/-! ## Every run -/

/-- What is known about the report on a list of files when there is no cache. -/
structure Determined (a : Analyzer) (root : String) (files : List String) : Prop where
  /-- The order of the list, the number of workers and their turns do not matter. -/
  scheduled : ∀ files' : List String, files'.Perm files → ∀ workers cpus moves s report s',
    .cancel ∉ moves → (a.withWorkers workers).scheduled? cpus moves root files' s = some (report, s') →
      report = a.freshReport root files
  analyzed : ∀ s, (a.analyzeFiles false root files s).1 = a.freshReport root files
  /-- The report shows the entry of each path, which depends on nothing else. -/
  reports : (a.freshReport root files).files = some ((a.entries root files).filterMap (·.2.getLeft?))
  warnings : (a.freshReport root files).warnings = some ((a.entries root files).filterMap (·.2.getRight?))
  /-- A source that differs at one path gives the other paths the same entries. -/
  isolated : ∀ source p,
    (∀ q, q ≠ p → source.read q = a.source.read q ∧ source.size? q = a.source.size? q) →
      (({ a with source := source } : Analyzer).entries root files).filter (·.1 ≠ p) =
        (a.entries root files).filter (·.1 ≠ p)
  reportsInOrder : Shown root files →
    ((a.freshReport root files).files.items.map (·.path)).Pairwise (· ≤ ·)
  warningsInOrder : Shown root files →
    ((a.freshReport root files).warnings.items.map (·.path)).Pairwise (· ≤ ·)

section Off

variable {a : Analyzer} (root : String) (files : List String)

theorem reports_freshReport : (a.freshReport root files).files =
    some ((a.entries root files).filterMap (·.2.getLeft?)) := by
  refine congrArg some ?_
  rw [map_report_resultsOf root, Analyzer.entries, List.map_map, List.filterMap_map, List.filterMap_map]
  rfl

theorem warnings_freshReport : (a.freshReport root files).warnings =
    some ((a.entries root files).filterMap (·.2.getRight?)) := by
  refine congrArg some ?_
  rw [filterMap_warning?, Analyzer.entries, List.map_map, List.filterMap_map, List.filterMap_map]
  rfl

theorem analyzeFiles_fresh (h : a.cache.enabled = false) (s : RunState) :
    (a.analyzeFiles false root files s).1 = a.freshReport root files := by
  have hseq := schedule?_sequential Nat.one_pos (a.job root) (sortStrings files) s
  have hfresh := Analyzer.schedule?_fresh h (cancel_not_mem_sequential _ _) hseq
  exact congrArg (ProjectReport.ofOutcomes root) hfresh

theorem determined_of_off (h : a.cache.enabled = false) : Determined a root files where
  scheduled := by
    intro files' hperm workers cpus moves s report s' hmoves hrun
    have hreport := Analyzer.scheduled?_fresh (a := a.withWorkers workers) h hmoves hrun
    rw [hreport, Analyzer.freshReport, Analyzer.freshReport, sortStrings_eq_of_perm hperm]
    rfl
  analyzed := analyzeFiles_fresh root files h
  reports := reports_freshReport root files
  warnings := warnings_freshReport root files
  isolated := by
    intro source p hsource
    unfold Analyzer.entries
    rw [List.filter_map, List.filter_map]
    refine List.map_congr_left fun q hq => ?_
    have hne : q ≠ p := by simpa using (List.mem_filter.mp hq).2
    obtain ⟨hread, hsize⟩ := hsource q hne
    rw [Analyzer.fresh, Analyzer.answer_congr hread hsize]
    rfl
  reportsInOrder := by
    intro hshown
    rw [reports_freshReport]
    change (((a.entries root files).filterMap (·.2.getLeft?)).map (·.path)).Pairwise (· ≤ ·)
    rw [List.pairwise_map, List.pairwise_filterMap]
    refine (entries_ordered a hshown).imp fun {e e'} hle r hr r' hr' => ?_
    rw [Sum.getLeft?_eq_some_iff] at hr hr'
    rwa [hr, hr'] at hle
  warningsInOrder := by
    intro hshown
    rw [warnings_freshReport]
    change (((a.entries root files).filterMap (·.2.getRight?)).map (·.path)).Pairwise (· ≤ ·)
    rw [List.pairwise_map, List.pairwise_filterMap]
    refine (entries_ordered a hshown).imp fun {e e'} hle w hw w' hw' => ?_
    rw [Sum.getRight?_eq_some_iff] at hw hw'
    rwa [hw, hw'] at hle

end Off

/-- **Every run accounts for every file.** The report on any outcomes of the sorted list does, the run
of every schedule has such outcomes, and the run of one file after the other is a schedule. Without a
cache and without cancellation the report depends on the files alone. -/
theorem analyzeFiles_accounted (a : Analyzer) (root : String) (files : List String) :
    (∀ outcomes : List (Outcome FileError FileResult), outcomes.map (·.path) = sortStrings files →
      Accounted root files outcomes (.ofOutcomes root outcomes)) ∧
    (∀ cpus moves s report s', a.scheduled? cpus moves root files s = some (report, s') →
      ∃ outcomes, Accounted root files outcomes report ∧
        ∀ o ∈ outcomes, (o.slot = .skipped ∧ .cancel ∈ moves) ∨
          ∃ t, o.slot = .ofAnswer (a.job root o.path t).1) ∧
    (∀ cpus cancelled s, 0 < a.workers cpus → ∃ moves, (.cancel ∈ moves ↔ cancelled = true) ∧
      a.scheduled? cpus moves root files s = some (a.analyzeFiles cancelled root files s)) ∧
    (a.cache.enabled = false → Determined a root files) := by
  refine ⟨ofOutcomes_accounted root files, ?_, ?_, determined_of_off root files⟩
  · intro cpus moves s report s' hrun
    obtain ⟨⟨outcomes, s₁⟩, hrun, hreport⟩ := Option.map_eq_some_iff.mp hrun
    obtain ⟨hpaths, -, hslots⟩ := schedule?_sound (I := fun _ => True) (fun _ _ _ _ => trivial) trivial hrun
    obtain rfl : .ofOutcomes root outcomes = report := congrArg Prod.fst hreport
    refine ⟨outcomes, ofOutcomes_accounted root files outcomes hpaths, fun o ho => ?_⟩
    exact (hslots o ho).imp_right fun ⟨t, _, ht⟩ => ⟨t, ht⟩
  · intro cpus cancelled s hworkers
    cases cancelled with
    | true =>
      refine ⟨[.cancel, .giveUp], by simp, ?_⟩
      rw [Analyzer.scheduled?, schedule?_given_up]
      rfl
    | false =>
      refine ⟨sequential 0 (sortStrings files).length, ?_, ?_⟩
      · simp [cancel_not_mem_sequential]
      · rw [Analyzer.scheduled?, schedule?_sequential hworkers]
        rfl

/-- Two files, the second of which is missing. -/
def halfMissing : Analyzer :=
  ⟨Config.default, Source.ofTexts [("a.js", Bytes.ofString "function f(){}")], .off⟩

/-- Two workers take a file each, and the batch is cancelled before the first one asks. -/
def cancelledBetween : List Move := [.submit 0, .submit 1, .enter 1, .cancel, .enter 0, .finish 1]

/-- Nothing on the disk, and nothing told yet. -/
def RunState.blank : RunState := ⟨⟨.dir [], "/"⟩, 0, []⟩

theorem analyzeFiles_accounted_halfMissing :
    (∃ report s' outcomes,
      halfMissing.scheduled? 2 cancelledBetween "" ["b.js", "a.js"] .blank = some (report, s') ∧
      Accounted "" ["b.js", "a.js"] outcomes report ∧
      report.summary.incomplete = true ∧ report.warnings.items.length = 2) ∧
    Determined halfMissing "" ["b.js", "a.js"] := by
  obtain ⟨-, hrun, -, hoff⟩ := analyzeFiles_accounted halfMissing "" ["b.js", "a.js"]
  refine ⟨?_, hoff rfl⟩
  have hsort : sortStrings ["b.js", "a.js"] = ["a.js", "b.js"] := by cbv
  have hshape : (halfMissing.scheduled? 2 cancelledBetween "" ["b.js", "a.js"] .blank).map
      (fun r => (r.1.summary.incomplete, r.1.warnings.items.length)) = some (true, 2) := by
    rw [Analyzer.scheduled?, hsort]
    decide
  obtain ⟨⟨report, s'⟩, h, hr⟩ := Option.map_eq_some_iff.mp hshape
  obtain ⟨hinc, hwarn⟩ := Prod.mk.inj hr
  obtain ⟨outcomes, hacc, -⟩ := hrun 2 cancelledBetween .blank report s' h
  exact ⟨report, s', outcomes, h, hacc, hinc, hwarn⟩

end ScriptSplit
