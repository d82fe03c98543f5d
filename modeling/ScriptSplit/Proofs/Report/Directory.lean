import Mathlib
import ScriptSplit.Proofs.Disk.Below
import ScriptSplit.Proofs.Format.Json.Pretty
import ScriptSplit.Proofs.Report.Naming
import ScriptSplit.Proofs.Report.Reading
import ScriptSplit.Proofs.Time.Moment

/-!
# A report directory keeps its report

Every file of a report is written under a name of its own, so nothing that is written later takes its
place, and whatever an older report left in the directory is not looked at. What is loaded is what was
written.

* `writeFiles_ok`: the report files after all of them are written.
* `loadJson_of_file`, `topFileFault?_of_file`: what a JSON file gives to a reader.
* `ReportKept`: a directory holds a report; **`writeReport_kept`**: so it does after the report is written.
-/

namespace ScriptSplit

open Disk (Settled)

/-- The content of a JSON file. -/
def jsonContent (j : Json) : Bytes := Bytes.ofString (j.pretty ++ "\n")

/-! ## Writing -/

/-- The places of names below a directory. -/
def placesOf (place names : List String) : Set (List String) := {q | ∃ name ∈ names, q = place ++ Path.parts name}

theorem not_mem_placesOf {place names : List String} {name : String} (h : name ∉ names) :
    place ++ Path.parts name ∉ placesOf place names := by
  rintro ⟨name', hmem, heq⟩
  rw [Path.parts_injective (List.append_cancel_left heq)] at h
  exact h hmem

/-- **The report files**: after all of them are written, each is there with its content. -/
theorem writeFiles_ok {dir : String} {left : Nat} {place : List String} {named : List (FileReport × String)}
    (hnames : ∀ p ∈ named, Path.Descends p.2) (hnodup : (named.map Prod.snd).Nodup) {d d' : Disk}
    (hsettled : Settled d dir left place) (h : writeFiles dir named d = (.ok (), d')) :
    Settled d' dir left place ∧ Node.Grows (placesOf place (named.map Prod.snd)) d.root d'.root ∧
      ∀ p ∈ named, d'.root.at? (place ++ Path.parts p.2) = some (.file (jsonContent p.1.toJson)) := by
  induction named generalizing d with
  | nil =>
    cases h
    exact ⟨hsettled, Node.Grows.refl _ _, fun p hp => absurd hp List.not_mem_nil⟩
  | cons p named ih =>
    obtain ⟨f, name⟩ := p
    rw [List.map_cons, List.nodup_cons] at hnodup
    rw [writeFiles] at h
    split at h
    · cases h
    rename_i d₁ hmake
    split at h
    · cases h
    rename_i d₂ hwrite
    obtain ⟨hsettled₁, hgrows₁⟩ := hsettled.mkdirAll hmake
    obtain ⟨hsettled₂, hgrows₂, hfile⟩ := hsettled₁.write (hnames (f, name) List.mem_cons_self) hwrite
    obtain ⟨hsettled', hgrows', hfiles⟩ :=
      ih (fun p hp => hnames p (List.mem_cons_of_mem _ hp)) hnodup.2 hsettled₂ h
    refine ⟨hsettled', ?_, fun p hp => ?_⟩
    · have hfirst : ({place ++ Path.parts name} : Set (List String)) ⊆
          placesOf place (name :: named.map Prod.snd) :=
        Set.singleton_subset_iff.mpr ⟨name, List.mem_cons_self, rfl⟩
      have hrest : placesOf place (named.map Prod.snd) ⊆ placesOf place (name :: named.map Prod.snd) :=
        fun q ⟨name', hmem, heq⟩ => ⟨name', List.mem_cons_of_mem name hmem, heq⟩
      exact ((hgrows₁.mono (Set.empty_subset _)).trans (hgrows₂.mono hfirst)).trans (hgrows'.mono hrest)
    · obtain rfl | hp := List.mem_cons.mp hp
      · -- the files that come later have other names
        exact hgrows'.file (not_mem_placesOf hnodup.1) hfile
      · exact hfiles p hp

/-! ## Reading -/

section File

variable {d : Disk} {dir name : String} {left : Nat} {place : List String} {j : Json}
  (hsettled : Settled d dir left place) (hname : Path.Descends name) (hj : j.Readable Json.maxDepth)
  (hfile : d.root.at? (place ++ Path.parts name) = some (.file (jsonContent j)))
include hsettled hname hj hfile

/-- A JSON file is loaded, if its value is decoded. -/
theorem loadJson_of_file {α : Type} {decode : Json → Option α} {a : α} (hdecode : decode j = some a) :
    loadJson d decode (Path.join dir name) = .ok a := by
  have hread := hsettled.read hname hfile
  unfold loadJson
  rw [hread]
  simp only [jsonContent, Utf8.decodeLossy_ofString, Json.readFront?_pretty hj, Option.bind_some, hdecode]

theorem topFileFault?_of_file : topFileFault? d dir name = none := by
  have hread := hsettled.read hname hfile
  unfold topFileFault?
  rw [hread]
  simp only [jsonContent, Json.read?_pretty hj]

end File

/-! ## The whole report -/

/-- The metadata with the counts of a report. -/
def Metadata.counted (m : Metadata) (r : ProjectReport) : Metadata :=
  { m with
    filesAnalyzed := r.files.items.length
    filesWithProblems := r.files.items.countP fun f => !f.problems.items.isEmpty }

/-- **A directory holds a report**: it has no faults, the metadata and the summary are loaded with the
counts and the warnings of the report, and the index leads to the files of the report, in order. -/
structure ReportKept (d : Disk) (dir : String) (r : ProjectReport) (m : Metadata) : Prop where
  faults : reportFaults d dir = []
  loaded : ∃ index, loadIndex d dir = .ok (m.counted r, index) ∧ index.summary = r.summary ∧
    index.warnings.items = r.warnings.items ∧
    List.Forall₂ (fun e f => e.path = f.path ∧ e.problems = f.problems.items.length ∧ loadReport d dir e = .ok f)
      index.files.items r.files.items

/-- The files of a report with their names. -/
def ProjectReport.named (r : ProjectReport) : List (FileReport × String) :=
  r.files.items.zip (assignNames [] (r.files.items.map (·.path)))

/-- The summary of a report with its index. -/
def ProjectReport.index (r : ProjectReport) : ReportIndex :=
  ⟨r.summary, some r.warnings.items, some (indexEntries r.named)⟩

section Named

variable {r : ProjectReport}

theorem map_fst_named : r.named.map Prod.fst = r.files.items := by
  refine List.map_fst_zip ?_
  rw [length_assignNames, List.length_map]

theorem map_snd_named : r.named.map Prod.snd = assignNames [] (r.files.items.map (·.path)) := by
  refine List.map_snd_zip ?_
  rw [length_assignNames, List.length_map]

theorem nodup_named : (r.named.map Prod.snd).Nodup := map_snd_named ▸ nodup_assignNames _ _

variable {p : FileReport × String} (hp : p ∈ r.named)
include hp

theorem fst_mem_of_mem_named : p.1 ∈ r.files.items := by
  rw [← map_fst_named]
  exact List.mem_map_of_mem hp

theorem parts_of_mem_named : ∃ inner, inner ≠ [] ∧ Path.parts p.2 = filesDir :: inner ∧
    ∀ s ∈ inner, Path.IsName s ∧ s ≠ ".." := by
  have hname : p.2 ∈ assignNames [] (r.files.items.map (·.path)) := by
    rw [← map_snd_named]
    exact List.mem_map_of_mem hp
  exact parts_of_mem_assignNames hname

theorem descends_of_mem_named : Path.Descends p.2 := by
  obtain ⟨inner, -, hparts, hinner⟩ := parts_of_mem_named hp
  intro s hs
  rw [hparts] at hs
  obtain rfl | hs := List.mem_cons.mp hs
  · exact isName_of_mem (c := 'f') (by decide) (by decide) (by decide)
  · exact hinner s hs

/-- The report files are in a directory of their own. -/
theorem ne_of_mem_named (place : List String) {name : String} (hname : Path.parts name = [name]) :
    place ++ Path.parts p.2 ≠ place ++ Path.parts name := by
  obtain ⟨inner, hne, hparts, -⟩ := parts_of_mem_named hp
  rw [hparts, hname]
  intro heq
  exact hne (List.cons.inj (List.append_cancel_left heq)).2

end Named

/-! ### What is written -/

theorem parts_filesDir : Path.parts filesDir = [filesDir] := by decide

theorem parts_metadataFile : Path.parts metadataFile = [metadataFile] := by decide

theorem parts_summaryFile : Path.parts summaryFile = [summaryFile] := by decide

theorem descends_of_parts {name : String} {c : Char} (hparts : Path.parts name = [name]) (hc : c ∈ name.toList)
    (hpoint : c ≠ '.') : Path.Descends name := by
  intro s hs
  have hslash := Path.not_slash_of_mem_parts hs
  rw [hparts, List.mem_singleton] at hs
  subst hs
  exact isName_of_mem hslash hc hpoint

theorem descends_filesDir : Path.Descends filesDir :=
  descends_of_parts (c := 'f') parts_filesDir (by decide) (by decide)

theorem descends_metadataFile : Path.Descends metadataFile :=
  descends_of_parts (c := 'm') parts_metadataFile (by decide) (by decide)

theorem descends_summaryFile : Path.Descends summaryFile :=
  descends_of_parts (c := 's') parts_summaryFile (by decide) (by decide)

/-- The files of a report are at their places below the directory. -/
structure ReportLaid (d : Disk) (dir : String) (r : ProjectReport) (m : Metadata) (left : Nat)
    (place : List String) : Prop where
  settled : Settled d dir left place
  files : ∀ p ∈ r.named, d.root.at? (place ++ Path.parts p.2) = some (.file (jsonContent p.1.toJson))
  metadata : d.root.at? (place ++ Path.parts metadataFile) = some (.file (jsonContent (m.counted r).toJson))
  summary : d.root.at? (place ++ Path.parts summaryFile) = some (.file (jsonContent r.index.toJson))

theorem writeMetadata_eq_ok_iff {d d' : Disk} {path : String} {m : Metadata} :
    writeMetadata d path m = (.ok (), d') ↔
      m.generatedAt.fault? = none ∧ writeJson d path m.toJson = .ok d' := by
  unfold writeMetadata
  cases m.generatedAt.fault? with
  | none => cases writeJson d path m.toJson <;> simp
  | some fault => cases d.write path [] <;> simp

/-- The metadata with the counts of a report added to it. -/
def Metadata.filled (m : Metadata) (r : ProjectReport) : Metadata :=
  { m with
    filesAnalyzed := r.files.items.length
    filesWithProblems := m.filesWithProblems + r.files.items.countP fun f => !f.problems.items.isEmpty }

theorem Metadata.filled_eq_counted {m : Metadata} (hcount : m.filesWithProblems = 0) (r : ProjectReport) :
    m.filled r = m.counted r := by
  rw [filled, hcount, zero_add]
  rfl

/-- **The steps of writing a report.** -/
theorem writeReport_iff {d d' : Disk} {dir : String} {r : ProjectReport} {m : Metadata} :
    writeReport d dir r m = (.ok (), d') ↔
    ∃ d₁ d₂ d₃, d.mkdirAll (Path.join dir filesDir) = .ok d₁ ∧ writeFiles dir r.named d₁ = (.ok (), d₂) ∧
      m.generatedAt.fault? = none ∧ writeJson d₂ (Path.join dir metadataFile) (m.filled r).toJson = .ok d₃ ∧
      writeJson d₃ (Path.join dir summaryFile) r.index.toJson = .ok d' := by
  have hfilled : { m with
      filesAnalyzed := (r.files.items.length : Int)
      filesWithProblems := m.filesWithProblems + r.files.items.countP fun f => !f.problems.items.isEmpty } =
      m.filled r := rfl
  have hmoment : (m.filled r).generatedAt = m.generatedAt := rfl
  have hnamed : r.files.items.zip (assignNames [] (r.files.items.map (·.path))) = r.named := rfl
  have hindex : (⟨r.summary, some r.warnings.items, some (indexEntries r.named)⟩ : ReportIndex) = r.index := rfl
  unfold writeReport
  simp only [hfilled, hnamed, hindex]
  constructor
  · intro h
    split at h
    · cases h
    rename_i d₁ hmake
    split at h
    · cases h
    rename_i d₂ hfiles
    split at h
    · cases h
    rename_i d₃ hmetadata
    split at h
    · cases h
    rename_i d₄ hsummary
    cases h
    obtain ⟨hfault, hmetadata⟩ := writeMetadata_eq_ok_iff.mp hmetadata
    rw [hmoment] at hfault
    exact ⟨d₁, d₂, d₃, hmake, hfiles, hfault, hmetadata, hsummary⟩
  · rintro ⟨d₁, d₂, d₃, hmake, hfiles, hfault, hmetadata, hsummary⟩
    rw [← hmoment] at hfault
    have hmetadata := writeMetadata_eq_ok_iff.mpr ⟨hfault, hmetadata⟩
    simp only [hmake, hfiles, hmetadata, hsummary]

theorem writeReport_eq_ok_iff {d d' : Disk} {dir : String} {r : ProjectReport} {m : Metadata}
    (hcount : m.filesWithProblems = 0) : writeReport d dir r m = (.ok (), d') ↔
    ∃ d₁ d₂ d₃, d.mkdirAll (Path.join dir filesDir) = .ok d₁ ∧ writeFiles dir r.named d₁ = (.ok (), d₂) ∧
      m.generatedAt.fault? = none ∧ writeJson d₂ (Path.join dir metadataFile) (m.counted r).toJson = .ok d₃ ∧
      writeJson d₃ (Path.join dir summaryFile) r.index.toJson = .ok d' := by
  rw [writeReport_iff, Metadata.filled_eq_counted hcount]

/-- **A report that is written is laid out** below its directory. -/
theorem writeReport_laid {d d' : Disk} {dir : String} {r : ProjectReport} {m : Metadata}
    (hdir : d.LinklessDir dir) (hcount : m.filesWithProblems = 0) (h : writeReport d dir r m = (.ok (), d')) :
    m.generatedAt.fault? = none ∧ ∃ left place, ReportLaid d' dir r m left place := by
  obtain ⟨d₁, d₂, d₃, hmake, hfiles, hfault, hmetadata, hsummary⟩ := (writeReport_eq_ok_iff hcount).mp h
  obtain ⟨left, place, hsettled₁⟩ := Disk.settled_mkdirAll hdir descends_filesDir parts_filesDir hmake
  obtain ⟨hsettled₂, -, hwritten⟩ :=
    writeFiles_ok (fun p hp => descends_of_mem_named hp) nodup_named hsettled₁ hfiles
  obtain ⟨hsettled₃, hgrows₃, hmetadata⟩ := hsettled₂.write descends_metadataFile hmetadata
  obtain ⟨hsettled', hgrows', hsummary⟩ := hsettled₃.write descends_summaryFile hsummary
  have hapart : place ++ Path.parts metadataFile ≠ place ++ Path.parts summaryFile := by
    rw [parts_metadataFile, parts_summaryFile]
    exact fun heq => absurd (List.append_cancel_left heq) (by decide)
  refine ⟨hfault, left, place, hsettled', fun p hp => ?_, hgrows'.file hapart hmetadata, hsummary⟩
  exact hgrows'.file (ne_of_mem_named hp place parts_summaryFile)
    (hgrows₃.file (ne_of_mem_named hp place parts_metadataFile) (hwritten p hp))

/-! ### What is read -/

theorem fits_of_le {a b : Nat} (hab : a ≤ b) (hb : Word64.fits b = true) : Word64.fits a = true := by
  have hleast : Word64.least ≤ 0 := by decide
  unfold Word64.fits at hb ⊢
  rw [Bool.and_eq_true, decide_eq_true_eq, decide_eq_true_eq] at hb ⊢
  omega

theorem restores_counted {r : ProjectReport} {m : Metadata} (hr : r.Storable) (hmoment : m.generatedAt.IsCalendar)
    (hfault : m.generatedAt.fault? = none) : Metadata.ofJson? (m.counted r).toJson = some (m.counted r) := by
  have hproblems : Word64.fits (m.counted r).filesWithProblems = true :=
    fits_of_le List.countP_le_length hr.fileCount
  exact restores_metadata (Moment.parse?_text hmoment hfault) hr.fileCount hproblems

theorem restores_reportIndex {r : ProjectReport} (hr : r.Storable) :
    ReportIndex.ofJson? r.index.toJson = some r.index := by
  refine restores_index hr.summary hr.warnings fun e he => ?_
  obtain ⟨p, hp, rfl⟩ := List.mem_map.mp he
  exact (hr.files p.1 (fst_mem_of_mem_named hp)).problemCount

/-- **A report that is laid out is loaded**, and nothing is wrong with it. -/
theorem ReportLaid.kept {d : Disk} {dir : String} {r : ProjectReport} {m : Metadata} {left : Nat}
    {place : List String} (h : ReportLaid d dir r m left place) (hr : r.Storable)
    (hmoment : m.generatedAt.IsCalendar) (hfault : m.generatedAt.fault? = none) : ReportKept d dir r m := by
  have hmetadata : loadJson d Metadata.ofJson? (Path.join dir metadataFile) = .ok (m.counted r) :=
    loadJson_of_file h.settled descends_metadataFile (readable_metadata _) h.metadata
      (restores_counted hr hmoment hfault)
  have hindex : loadJson d ReportIndex.ofJson? (Path.join dir summaryFile) = .ok r.index :=
    loadJson_of_file h.settled descends_summaryFile (readable_index _) h.summary (restores_reportIndex hr)
  have hload : loadIndex d dir = .ok (m.counted r, r.index) := by
    unfold loadIndex
    rw [hmetadata, hindex]
    rfl
  have hfiles : ∀ p ∈ r.named, loadReport d dir ⟨p.1.path, p.2, p.1.problems.items.length⟩ = .ok p.1 :=
    fun p hp => loadJson_of_file h.settled (descends_of_mem_named hp) (readable_report _) (h.files p hp)
      (restores_fileReport (hr.files p.1 (fst_mem_of_mem_named hp)))
  refine ⟨?_, r.index, hload, rfl, rfl, ?_⟩
  · have htop : [metadataFile, summaryFile].filterMap (topFileFault? d dir) = [] := by
      have h₁ := topFileFault?_of_file h.settled descends_metadataFile (readable_metadata _) h.metadata
      have h₂ := topFileFault?_of_file h.settled descends_summaryFile (readable_index _) h.summary
      simp [h₁, h₂]
    have hentries : r.index.files.items.filterMap (indexFault? d dir) = [] := by
      rw [List.filterMap_eq_nil_iff]
      intro e he
      obtain ⟨p, hp, rfl⟩ := List.mem_map.mp he
      unfold indexFault?
      simp only [hfiles p hp]
      rfl
    unfold reportFaults
    simp only [htop, hload, hentries]
    rfl
  · rw [← map_fst_named]
    change List.Forall₂ _ (r.named.map _) (r.named.map Prod.fst)
    rw [List.forall₂_map_left_iff, List.forall₂_map_right_iff, List.forall₂_same]
    exact fun p hp => ⟨rfl, rfl, hfiles p hp⟩

/-- **What is written is kept.** A report that is written into a directory without links, such as an empty
one or one with an older report, is there afterwards, and there are still no links in the directory. -/
theorem writeReport_kept {d d' : Disk} {dir : String} {r : ProjectReport} {m : Metadata}
    (hdir : d.LinklessDir dir) (hr : r.Storable) (hmoment : m.generatedAt.IsCalendar)
    (hcount : m.filesWithProblems = 0) (h : writeReport d dir r m = (.ok (), d')) :
    ReportKept d' dir r m ∧ d'.LinklessDir dir := by
  obtain ⟨hfault, left, place, hlaid⟩ := writeReport_laid hdir hcount h
  exact ⟨hlaid.kept hr hmoment hfault, hlaid.settled.linklessDir⟩

/-! ### A report over an older one -/

/-- A report on a file of which nothing is known. -/
def blankFile (path : String) : FileReport :=
  ⟨path, ⟨0, 0, 0, 0, 0, "", 0, "", 0, 0⟩, none, none, none, none, none, none, none, [], []⟩

/-- A report on such files. -/
def blankReport (paths : List String) : ProjectReport :=
  ⟨"/src", some (paths.map blankFile), ⟨2, 2, 0, 0, 0, none, false⟩, none⟩

/-- The metadata of a report that was made at noon. -/
def noonMetadata : Metadata := ⟨"/src", ⟨2024, 2, 29, 12, 0, 0, 500000000, 90⟩, "1", "", "f", 0, 0⟩

/-- A disk with an empty directory. -/
def emptyHome : Disk := ⟨.dir [("out", .dir [])], "/"⟩

/-- A disk with a report directory, given its report files and what is beside them. -/
def reportDisk (files beside : List (String × Node)) : Disk :=
  ⟨.dir [("out", .dir (("files", .dir files) :: beside))], "/"⟩

theorem writeJson_eq (d : Disk) (path : String) (j : Json) : writeJson d path j = d.write path (jsonContent j) := rfl

/-- The first report goes into an empty directory. -/
theorem writeReport_first : ∃ a b c, writeReport emptyHome "/out" (blankReport ["a_b"]) noonMetadata =
    (.ok (), reportDisk [("a_b.json", .file a)] [("metadata.json", .file b), ("summary.json", .file c)]) := by
  have hnamed : (blankReport ["a_b"]).named = [(blankFile "a_b", "files/a_b.json")] := by
    decide
  -- what the files say plays no part in where they go
  generalize blankReport ["a_b"] = r at hnamed ⊢
  generalize hfile : jsonContent (blankFile "a_b").toJson = a
  generalize hmetadata : jsonContent (noonMetadata.counted r).toJson = b
  generalize hsummary : jsonContent r.index.toJson = c
  refine ⟨a, b, c, (writeReport_eq_ok_iff rfl).mpr ⟨reportDisk [] [], reportDisk [("a_b.json", .file a)] [],
    reportDisk [("a_b.json", .file a)] [("metadata.json", .file b)], by cbv, ?_, by cbv, ?_, ?_⟩⟩
  · simp only [hnamed, writeFiles, writeJson_eq, hfile]
    cbv
  · simp only [writeJson_eq, hmetadata]
    cbv
  · simp only [writeJson_eq, hsummary]
    cbv

/-- The second report goes over the first one, and the names of its files collide. -/
theorem writeReport_second (a b c : Bytes) : ∃ d, writeReport
    (reportDisk [("a_b.json", .file a)] [("metadata.json", .file b), ("summary.json", .file c)]) "/out"
    (blankReport ["a:b", "a_b"]) noonMetadata = (.ok (), d) := by
  have hnamed : (blankReport ["a:b", "a_b"]).named =
      [(blankFile "a:b", "files/a_b.json"), (blankFile "a_b", "files/a_b~1.json")] := by decide
  generalize blankReport ["a:b", "a_b"] = r at hnamed ⊢
  generalize hfirst : jsonContent (blankFile "a:b").toJson = first
  generalize hsecond : jsonContent (blankFile "a_b").toJson = second
  generalize hmetadata : jsonContent (noonMetadata.counted r).toJson = metadata
  generalize hsummary : jsonContent r.index.toJson = summary
  refine ⟨reportDisk [("a_b.json", .file first), ("a_b~1.json", .file second)]
    [("metadata.json", .file metadata), ("summary.json", .file summary)], (writeReport_eq_ok_iff rfl).mpr
      ⟨reportDisk [("a_b.json", .file a)] [("metadata.json", .file b), ("summary.json", .file c)],
       reportDisk [("a_b.json", .file first), ("a_b~1.json", .file second)]
        [("metadata.json", .file b), ("summary.json", .file c)],
       reportDisk [("a_b.json", .file first), ("a_b~1.json", .file second)]
        [("metadata.json", .file metadata), ("summary.json", .file c)], by cbv, ?_, by cbv, ?_, ?_⟩⟩
  · simp only [hnamed, writeFiles, writeJson_eq, hfirst, hsecond]
    cbv
  · simp only [writeJson_eq, hmetadata]
    cbv
  · simp only [writeJson_eq, hsummary]
    cbv

theorem storable_blankReport {paths : List String} (h : Word64.fits paths.length = true) :
    (blankReport paths).Storable := by
  have hnone : ∀ {α : Type} (P : α → Prop), ∀ a ∈ ([] : List α), P a := fun P a ha => absurd ha List.not_mem_nil
  refine ⟨⟨rfl, rfl, rfl, rfl, rfl⟩, hnone _, fun f hf => ?_, ?_⟩
  · obtain ⟨path, -, rfl⟩ := List.mem_map.mp hf
    exact ⟨⟨rfl, rfl, rfl, rfl, rfl, rfl, rfl, rfl⟩, hnone _, .nil, ⟨.nil, hnone _⟩, hnone _, rfl⟩
  · change Word64.fits (paths.map blankFile).length = true
    rwa [List.length_map]

theorem isCalendar_noon : noonMetadata.generatedAt.IsCalendar :=
  ⟨by decide, by decide, by decide, by decide, by decide, by decide⟩

theorem find_emptyHome : emptyHome.find .follow (Path.clean "/out") = .ok (.dir []) := by cbv

/-- A report is written into an empty directory, and another one over it. -/
theorem writeReport_kept_twice : ∃ d d',
    writeReport emptyHome "/out" (blankReport ["a_b"]) noonMetadata = (.ok (), d) ∧
      ReportKept d "/out" (blankReport ["a_b"]) noonMetadata ∧
    writeReport d "/out" (blankReport ["a:b", "a_b"]) noonMetadata = (.ok (), d') ∧
      ReportKept d' "/out" (blankReport ["a:b", "a_b"]) noonMetadata := by
  obtain ⟨a, b, c, hfirst⟩ := writeReport_first
  obtain ⟨d', hsecond⟩ := writeReport_second a b c
  obtain ⟨hkept, hlinkless⟩ := writeReport_kept (Disk.linklessDir_of_empty find_emptyHome)
    (storable_blankReport rfl) isCalendar_noon rfl hfirst
  exact ⟨_, d', hfirst, hkept, hsecond,
    (writeReport_kept hlinkless (storable_blankReport rfl) isCalendar_noon rfl hsecond).1⟩

end ScriptSplit
