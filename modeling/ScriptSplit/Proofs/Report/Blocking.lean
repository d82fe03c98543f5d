import Mathlib
import ScriptSplit.Proofs.Disk.Room
import ScriptSplit.Proofs.Report.Directory

/-!
# Report names that block one another

Names of report files are distinct, but a name may be the directory of another one: a path may go through a
directory that is called like the report file of a second path. Then the report cannot be written, and
otherwise it can.

* `Blocks`, `Unblocked`: a name is the directory of another one.
* `unblocked_of_plainWay`: no directory on the way is called like a report file, so no name blocks another.
* `reportLayout`: where the files of a report go; `exists_writeFiles`, `exists_writeReport`: they are written there.
* **`writeReport_fresh`**: a report is written into a fresh directory exactly if its names do not block one another.
-/

namespace ScriptSplit

open Disk (HasRoom)

/-! ## Names that are directories -/

/-- A file of the first name stands where the second one needs a directory. -/
def Blocks (name other : String) : Prop := (name ++ "/").toList <+: other.toList

instance (name other : String) : Decidable (Blocks name other) :=
  inferInstanceAs (Decidable ((name ++ "/").toList <+: other.toList))

/-- No name of the list blocks another. -/
def Unblocked (names : List String) : Prop := ∀ name ∈ names, ∀ other ∈ names, ¬ Blocks name other

theorem blocks_iff {name other : String} :
    Blocks name other ↔ ∃ rest, rest ≠ [] ∧ Path.parts other = Path.parts name ++ rest := by
  constructor
  · rintro ⟨rest, hrest⟩
    have hother : other = name ++ "/" ++ String.ofList rest := by
      rw [← String.toList_inj, String.toList_append, String.toList_ofList, hrest]
    exact ⟨Path.parts (String.ofList rest), Path.parts_ne_nil _, hother ▸ Path.parts_append_slash _ _⟩
  · rintro ⟨rest, hne, hparts⟩
    refine ⟨("/".intercalate rest).toList, ?_⟩
    rw [← String.toList_append, ← Path.intercalate_parts other, hparts,
      String.intercalate_append_of_ne_nil (Path.parts_ne_nil name) hne, Path.intercalate_parts]

/-- No directory on the way of the path is called like a report file. -/
def PlainWay (path : String) : Prop :=
  ∀ segment ∈ (reportSegments path).dropLast, ¬ ".json".toList <:+ segment.toList

/-- **Where no directory is called like a report file**, no name blocks another. -/
theorem unblocked_of_plainWay {paths : List String} (h : ∀ path ∈ paths, PlainWay path) :
    Unblocked (assignNames [] paths) := by
  intro name hname other hother hblocks
  obtain ⟨path, -, taken, rfl⟩ := exists_of_mem_assignNames hname
  obtain ⟨path', hpath', taken', rfl⟩ := exists_of_mem_assignNames hother
  obtain ⟨last, hparts, -⟩ := parts_freshName path taken
  obtain ⟨last', hparts', -⟩ := parts_freshName path' taken'
  obtain ⟨rest, hne, heq⟩ := blocks_iff.mp hblocks
  rw [hparts, hparts', List.cons_append, List.cons.injEq] at heq
  -- the last step of the first name is a directory of the second one
  have hmem : last ++ ".json" ∈ (reportSegments path').dropLast := by
    have hfront := congrArg List.dropLast heq.2
    rw [List.dropLast_concat, List.dropLast_append_of_ne_nil hne] at hfront
    rw [hfront]
    simp
  refine h path' hpath' _ hmem ?_
  rw [String.toList_append]
  exact List.suffix_append _ _

/-! ## Writing a report -/

/-- The directories and the files of a report on paths, whose names do not block one another. -/
def reportLayout (paths : List String) (h : Unblocked (assignNames [] paths)) : Layout where
  dirs := {below | below <+: [filesDir] ∨
    ∃ name ∈ assignNames [] paths, below <+: Path.parts name ∧ below ≠ Path.parts name}
  files := {below | below = [metadataFile] ∨ below = [summaryFile] ∨
    ∃ name ∈ assignNames [] paths, below = Path.parts name}
  apart := by
    rw [Set.disjoint_left]
    have hroot : ∀ below, below <+: [filesDir] → below ≠ [metadataFile] ∧ below ≠ [summaryFile] := by
      refine fun below hbelow => ⟨?_, ?_⟩ <;> rintro rfl <;> exact absurd hbelow (by decide)
    rintro below (hbelow | ⟨name, hname, hprefix, hne⟩) (rfl | rfl | ⟨other, hother, rfl⟩)
    · exact (hroot _ hbelow).1 rfl
    · exact (hroot _ hbelow).2 rfl
    · obtain ⟨inner, hinner, hparts, -⟩ := parts_of_mem_assignNames hother
      rw [hparts] at hbelow
      exact hinner (List.prefix_nil.mp (List.cons_prefix_cons.mp hbelow).2)
    · obtain ⟨inner, -, hparts, -⟩ := parts_of_mem_assignNames hname
      rw [hparts, List.cons_prefix_cons] at hprefix
      exact absurd hprefix.1 (by decide)
    · obtain ⟨inner, -, hparts, -⟩ := parts_of_mem_assignNames hname
      rw [hparts, List.cons_prefix_cons] at hprefix
      exact absurd hprefix.1 (by decide)
    · obtain ⟨rest, hrest⟩ := hprefix
      refine h other hother name hname (blocks_iff.mpr ⟨rest, ?_, hrest.symm⟩)
      rintro rfl
      exact hne (by rwa [List.append_nil] at hrest)

/-- **Report files are written** one after the other, where a layout has all of them. -/
theorem exists_writeFiles {l : Layout} {dir : String} {left : Nat} {place : List String}
    {named : List (FileReport × String)} (hnames : ∀ p ∈ named, Path.Descends p.2 ∧ l.HasFile (Path.parts p.2) ∧
      ∃ above last, Path.parts p.2 = above ++ [last] ∧ above ≠ []) {d : Disk} (h : HasRoom l d dir left place) :
    ∃ d', writeFiles dir named d = (.ok (), d') ∧ HasRoom l d' dir left place := by
  induction named generalizing d with
  | nil => exact ⟨d, rfl, h⟩
  | cons p named ih =>
    obtain ⟨f, name⟩ := p
    obtain ⟨hname, hfile, above, last, hparts, hne⟩ := hnames (f, name) List.mem_cons_self
    obtain ⟨d₁, d₂, hmake, hwrite, hroom⟩ := h.put hname hfile hparts hne (jsonContent f.toJson)
    obtain ⟨d', hrest, hroom'⟩ := ih (fun p hp => hnames p (List.mem_cons_of_mem _ hp)) hroom
    refine ⟨d', ?_, hroom'⟩
    rw [writeFiles]
    simp only [hmake, writeJson_eq, hwrite, hrest]

section Report

variable {d : Disk} {dir : String} {r : ProjectReport} {m : Metadata}

/-- **Where no name blocks another**, a report is written into a fresh directory. -/
theorem exists_writeReport (hdir : d.FreshDir dir) (hmoment : m.generatedAt.fault? = none)
    (h : Unblocked (assignNames [] (r.files.items.map (·.path)))) : ∃ d', writeReport d dir r m = (.ok (), d') := by
  have hfiles : ∀ first, first <+: Path.parts filesDir →
      first ∈ (reportLayout (r.files.items.map (·.path)) h).dirs := by
    intro first hfirst
    rw [parts_filesDir] at hfirst
    exact .inl hfirst
  obtain ⟨d₁, left, place, hmake, hroom₁⟩ := hdir.mkdirAll descends_filesDir hfiles
  have hnames : ∀ p ∈ r.named, Path.Descends p.2 ∧
      (reportLayout (r.files.items.map (·.path)) h).HasFile (Path.parts p.2) ∧
      ∃ above last, Path.parts p.2 = above ++ [last] ∧ above ≠ [] := by
    intro p hp
    have hname : p.2 ∈ assignNames [] (r.files.items.map (·.path)) := map_snd_named ▸ List.mem_map_of_mem hp
    obtain ⟨inner, hinner, hparts, -⟩ := parts_of_mem_named hp
    refine ⟨descends_of_mem_named hp, ⟨.inr (.inr ⟨p.2, hname, rfl⟩), fun first hfirst hne =>
      .inr ⟨p.2, hname, hfirst, hne⟩⟩, filesDir :: inner.dropLast, inner.getLast hinner, ?_, List.cons_ne_nil _ _⟩
    rw [List.cons_append, List.dropLast_append_getLast, hparts]
  obtain ⟨d₂, hwritten, hroom₂⟩ := exists_writeFiles hnames hroom₁
  obtain ⟨entries₂, htop₂⟩ := hroom₂.exists_dir
  rw [← List.append_nil place] at htop₂
  obtain ⟨d₃, hmetadata, hroom₃⟩ := hroom₂.write descends_metadataFile
    (by rw [parts_metadataFile]; exact .inl rfl) parts_metadataFile htop₂ (jsonContent (m.filled r).toJson)
  obtain ⟨entries₃, htop₃⟩ := hroom₃.exists_dir
  rw [← List.append_nil place] at htop₃
  obtain ⟨d', hsummary, -⟩ := hroom₃.write descends_summaryFile
    (by rw [parts_summaryFile]; exact .inr (.inl rfl)) parts_summaryFile htop₃ (jsonContent r.index.toJson)
  exact ⟨d', writeReport_iff.mpr ⟨d₁, d₂, d₃, hmake, hwritten, hmoment, hmetadata, hsummary⟩⟩

theorem writeReport_of_writeFiles {d₁ d' : Disk} {e : ReportWriteError}
    (hmake : d.mkdirAll (Path.join dir filesDir) = .ok d₁) (hfiles : writeFiles dir r.named d₁ = (.error e, d')) :
    writeReport d dir r m = (.error e, d') := by
  have hnamed : r.files.items.zip (assignNames [] (r.files.items.map (·.path))) = r.named := rfl
  unfold writeReport
  simp only [hmake, hnamed, hfiles]

/-- **A report that was written** has no names that block one another: both would be there, one of them below
the file of the other. -/
theorem unblocked_of_writeReport {d' : Disk} (hdir : d.LinklessDir dir) (h : writeReport d dir r m = (.ok (), d')) :
    Unblocked (assignNames [] (r.files.items.map (·.path))) := by
  obtain ⟨d₁, d₂, d₃, hmake, hfiles, -⟩ := writeReport_iff.mp h
  obtain ⟨left, place, hsettled⟩ := Disk.settled_mkdirAll hdir descends_filesDir parts_filesDir hmake
  obtain ⟨-, -, hwritten⟩ := writeFiles_ok (fun p hp => descends_of_mem_named hp) nodup_named hsettled hfiles
  rw [← map_snd_named]
  intro name hname other hother hblocks
  obtain ⟨p, hp, rfl⟩ := List.mem_map.mp hname
  obtain ⟨q, hq, rfl⟩ := List.mem_map.mp hother
  obtain ⟨rest, hne, hparts⟩ := blocks_iff.mp hblocks
  have hbelow := hwritten q hq
  rw [hparts, ← List.append_assoc] at hbelow
  obtain ⟨entries, hentries⟩ := Node.exists_dir_of_append hne hbelow
  rw [hwritten p hp] at hentries
  cases hentries

/-- **A report is written into a fresh directory** exactly if its names do not block one another, and so it is
if no directory on the way of a path is called like a report file. -/
theorem writeReport_fresh (hdir : d.FreshDir dir) (hmoment : m.generatedAt.fault? = none) :
    ((∃ d', writeReport d dir r m = (.ok (), d')) ↔ Unblocked (assignNames [] (r.files.items.map (·.path)))) ∧
      ((∀ f ∈ r.files.items, PlainWay f.path) →
        Unblocked (assignNames [] (r.files.items.map (·.path))) ∧ ∃ d', writeReport d dir r m = (.ok (), d')) := by
  refine ⟨⟨fun ⟨d', h⟩ => unblocked_of_writeReport hdir.linklessDir h, exists_writeReport hdir hmoment⟩,
    fun hplain => ?_⟩
  have hfree : Unblocked (assignNames [] (r.files.items.map (·.path))) := by
    refine unblocked_of_plainWay fun path hpath => ?_
    obtain ⟨f, hf, rfl⟩ := List.mem_map.mp hpath
    exact hplain f hf
  exact ⟨hfree, exists_writeReport hdir hmoment hfree⟩

end Report

/-- The directory need not be there yet. -/
theorem writeReport_fresh_new : ∃ d', writeReport emptyHome "/out/new" (blankReport ["src/a.js", "src/a.json"])
    noonMetadata = (.ok (), d') := by
  have hdir : emptyHome.FreshDir "/out/new" := ⟨⟨.dir [("out", .dir [("new", .dir [])])], "/"⟩, by cbv, by cbv⟩
  have hplain : ∀ f ∈ (blankReport ["src/a.js", "src/a.json"]).files.items, PlainWay f.path := by
    intro f hf
    obtain ⟨path, hpath, rfl⟩ := List.mem_map.mp hf
    unfold PlainWay
    revert path
    decide
  exact ((writeReport_fresh hdir rfl).2 hplain).2

/-- A path that goes through a directory which is called like the report file of another path. -/
theorem writeReport_blocked : emptyHome.FreshDir "/out" ∧
    assignNames [] ["a.js", "a.js.json/b.js"] = ["files/a.js.json", "files/a.js.json/b.js.json"] ∧
    Blocks "files/a.js.json" "files/a.js.json/b.js.json" ∧
    ∃ d', writeReport emptyHome "/out" (blankReport ["a.js", "a.js.json/b.js"]) noonMetadata =
      (.error (.directoryFor "a.js.json/b.js" ⟨"mkdir", "/out/files/a.js.json", .notDirectory⟩), d') := by
  have hnames : assignNames [] ["a.js", "a.js.json/b.js"] = ["files/a.js.json", "files/a.js.json/b.js.json"] := by
    decide
  refine ⟨Disk.freshDir_of_empty find_emptyHome, hnames, by decide, ?_⟩
  have hmake : emptyHome.mkdirAll (Path.join "/out" filesDir) = .ok (reportDisk [] []) := by cbv
  have hnamed : (blankReport ["a.js", "a.js.json/b.js"]).named =
      [(blankFile "a.js", "files/a.js.json"), (blankFile "a.js.json/b.js", "files/a.js.json/b.js.json")] := by
    decide
  generalize hfirst : jsonContent (blankFile "a.js").toJson = first
  have hfiles : writeFiles "/out" [(blankFile "a.js", "files/a.js.json"),
      (blankFile "a.js.json/b.js", "files/a.js.json/b.js.json")] (reportDisk [] []) =
      (.error (.directoryFor "a.js.json/b.js" ⟨"mkdir", "/out/files/a.js.json", .notDirectory⟩),
        reportDisk [("a.js.json", .file first)] []) := by
    simp only [writeFiles, writeJson_eq, hfirst]
    cbv
  exact ⟨_, writeReport_of_writeFiles hmake (hnamed ▸ hfiles)⟩

end ScriptSplit
