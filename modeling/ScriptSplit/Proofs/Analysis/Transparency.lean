import Mathlib
import ScriptSplit.Proofs.Analysis.Accounting
import ScriptSplit.Proofs.Cache.Entry
import ScriptSplit.Proofs.Cache.Store
import ScriptSplit.Proofs.Config.Fingerprint

/-!
# The cache cannot be seen in reports

However many runs share a cache, with whatever files, settings, times to live and moments, and whatever
is removed from the cache in between, each run gives the report that it gives without a cache.

* `Written`: an entry file that some analysis has written; `Genuine`: a directory holds no others.
* `Analyzer.analyze_of_hit`: what is read from the cache is the result of the analysis.
* `Analyzer.analyzeFile_transparent`: a file has the answer of the analysis, and the directory stays genuine.
* `Run`, `Event`, `reports`: a history of runs, removals and changes by others.
* **`reports_uncached`**: the reports of a history are those of the same history without caches.
-/

namespace ScriptSplit

open Batch Cache

/-! ## Genuine entries -/

section Genuine

variable (settings : Set Config) (contents : Set Bytes)

/-- The entry file of a result of the analysis. -/
def Written (raw : Bytes) : Prop :=
  ∃ cfg ∈ settings, ∃ content ∈ contents, ∃ display now r, analyze cfg display content = .ok r ∧
    Entry.bytes? ⟨display ++ "@" ++ cfg.fingerprint, Hash.Blake3.hex content, Moment.ofNanos now,
      Bytes.ofString r.toJson.compact⟩ = some raw

/-- All entry files of a directory were written by the analysis. -/
def Genuine (dir : String) (d : Disk) : Prop := ∀ raw, Holds dir d raw → Written settings contents raw

/-- No two settings in use have the same fingerprint, and no two contents the same hash. -/
structure NoCollision : Prop where
  settings : Set.InjOn Hash.XXHash64.hex ((fun cfg => Bytes.ofString cfg.preimage) '' settings)
  contents : Set.InjOn Hash.Blake3.hex contents

end Genuine

variable {settings : Set Config} {contents : Set Bytes} {dir : String}

theorem NoCollision.analyze_eq (hash : NoCollision settings contents) {cfg cfg' : Config}
    (hcfg : cfg ∈ settings) (hcfg' : cfg' ∈ settings) (h : cfg.fingerprint = cfg'.fingerprint)
    (display : String) (content : Bytes) : analyze cfg display content = analyze cfg' display content := by
  have hbytes := hash.settings ⟨cfg, hcfg, rfl⟩ ⟨cfg', hcfg', rfl⟩ h
  exact (Config.agree_of_preimage (Bytes.ofString_injective hbytes)).analyze display content

/-! ## One file -/

namespace Analyzer

/-- The cache has an entry of the file and its content, from which the result is read. -/
def Hit (a : Analyzer) (display : String) (content : Bytes) (d : Disk) (r : FileResult) : Prop :=
  a.cache.enabled = true ∧ ∃ raw e, d.read (a.cache.keyPath (a.cacheKey display)) = .ok raw ∧
    Entry.ofBytes? raw = some e ∧ e.key = a.cacheKey display ∧ e.hash = Hash.Blake3.hex content ∧
    (Json.read? e.data).bind FileResult.ofJson? = some r

/-- Asking the cache adds no entry files, and a result comes from an entry of the file and its content. -/
theorem cached_cases {a : Analyzer} {display : String} {content : Bytes} {s s' : RunState}
    {found : Option FileResult} (h : a.cached display content s = (found, s')) :
    (∀ dir raw, Holds dir s'.disk raw → Holds dir s.disk raw) ∧
      ∀ r, found = some r → a.Hit display content s.disk r := by
  unfold cached at h
  cases hlookup : a.cache.lookup s.disk s.now (a.cacheKey display) content with
  | mk data disk =>
    have hhold : ∀ dir raw, Holds dir disk raw → Holds dir s.disk raw := fun _ _ => holds_of_lookup hlookup
    simp only [hlookup] at h
    cases data with
    | none =>
      cases h
      exact ⟨hhold, fun r hr => by cases hr⟩
    | some data =>
      simp only [] at h
      cases hresult : (Json.read? data).bind FileResult.ofJson? with
      | none =>
        rw [hresult] at h
        simp only [] at h
        split at h
        case h_1 disk' hinvalidate =>
          cases h
          refine ⟨fun dir raw hold => ?_, fun r hr => by cases hr⟩
          exact hhold dir raw (holds_of_invalidate hinvalidate hold)
        case h_2 =>
          cases h
          exact ⟨hhold, fun r hr => by cases hr⟩
      | some r =>
        rw [hresult] at h
        cases h
        refine ⟨hhold, fun r' hr' => ?_⟩
        cases hr'
        obtain ⟨hnone, -⟩ | ⟨-, henabled, raw, e, hread, hentry, hkey, hhash, hdata⟩ := lookup_cases hlookup
        · cases hnone
        · cases hdata
          exact ⟨henabled, raw, e, hread, hentry, hkey, hhash, hresult⟩

/-- Keeping a result adds no more than its own entry file. -/
theorem genuine_keep {a : Analyzer} (hcfg : a.config ∈ settings) {display : String} {content : Bytes}
    (hcontent : content ∈ contents) {r : FileResult} (hr : analyze a.config display content = .ok r)
    {s : RunState} (hs : Genuine settings contents dir s.disk) :
    Genuine settings contents dir (a.keep display content r s).disk := by
  unfold keep
  split
  case h_1 disk hstore =>
    intro raw hold
    obtain hnew | hold := holds_of_store hstore hold
    · exact ⟨a.config, hcfg, content, hcontent, display, s.now, r, hr, hnew⟩
    · exact hs raw hold
  case h_2 => exact hs

section File

variable (hash : NoCollision settings contents) {a : Analyzer}
  (hdir : a.cache.enabled = true → a.cache.dir = dir) (hcfg : a.config ∈ settings)
include hash hdir hcfg

/-- **Whatever is read** from a genuine entry of a file and its content is the result of the analysis. -/
theorem analyze_of_hit {display : String} {content : Bytes} (hcontent : content ∈ contents) {d : Disk}
    (hd : Genuine settings contents dir d) {r : FileResult} (h : a.Hit display content d r) :
    analyze a.config display content = .ok r := by
  obtain ⟨henabled, raw, e, hread, hentry, hkey, hhash, hr⟩ := h
  rw [keyPath_eq, hdir henabled] at hread
  have hold : Holds dir d raw := ⟨a.cacheKey display, hread, Option.isSome_of_eq_some hentry⟩
  obtain ⟨cfg', hcfg', content', hcontent', display', now, r', hr', hraw⟩ := hd raw hold
  -- the entry is the one of this path, of settings that agree and of this content
  obtain ⟨hkey', hhash', hdata⟩ := Entry.same_of_ofBytes? hraw hentry
  obtain ⟨rfl, hprint⟩ := key_injective (hkey.symm.trans hkey')
  obtain rfl : content = content' := hash.contents hcontent hcontent' (hhash.symm.trans hhash')
  rw [hdata, Json.read?_compact (readable_result r'), Option.bind_some] at hr
  rw [exact_result (canonical_analyze hr') r hr, hash.analyze_eq hcfg hcfg' hprint, hr']

/-- **A file** has the answer of the analysis, whatever name it is shown under, and the directory stays
genuine. -/
theorem analyzeFile_transparent {display path : String}
    (hcontents : ∀ content, a.content path = .ok content → content ∈ contents) {s : RunState}
    (hs : Genuine settings contents dir s.disk) :
    (a.analyzeFile display path s).1 = a.answerAs display path ∧
      Genuine settings contents dir (a.analyzeFile display path s).2.disk := by
  unfold analyzeFile answerAs
  cases hread : a.content path with
  | error e => exact ⟨rfl, hs⟩
  | ok content =>
    have hcontent := hcontents content hread
    cases hcached : a.cached display content s with
    | mk found s' =>
      obtain ⟨hold, hfound⟩ := cached_cases hcached
      have hs' : Genuine settings contents dir s'.disk := fun raw h => hs raw (hold dir raw h)
      simp only [hcached]
      cases found with
      | some r =>
        rw [analyze_of_hit hash hdir hcfg hcontent hs (hfound r rfl)]
        exact ⟨rfl, hs'⟩
      | none =>
        cases hr : analyze a.config display content with
        | error e => exact ⟨rfl, hs'⟩
        | ok r => exact ⟨rfl, genuine_keep hcfg hcontent hr hs'⟩

/-- The job of a file gives the answer of the analysis and leaves the directory genuine. -/
theorem job_transparent {root path : String}
    (hcontents : ∀ content, a.content path = .ok content → content ∈ contents) {s : RunState}
    (hs : Genuine settings contents dir s.disk) :
    (a.job root path s).1 = a.answer root path ∧
      Genuine settings contents dir (a.job root path s).2.disk :=
  analyzeFile_transparent hash hdir hcfg hcontents hs

end File

end Analyzer

/-! ## Histories -/

/-- How the files of a run are taken: one after the other, or none if the run is cancelled beforehand, or
by a pool of workers. -/
inductive Pace where
  | inTurn (cancelled : Bool)
  | pooled (cpus : Nat) (moves : List Move)

/-- A run over a list of files at a moment. -/
structure Run where
  analyzer : Analyzer
  root : String
  files : List String
  now : Int
  pace : Pace

namespace Run

/-- The report of a run and what it leaves. A pool whose moves are not possible has no report. -/
def result? (r : Run) (d : Disk) : Option (ProjectReport × RunState) :=
  match r.pace with
  | .inTurn cancelled => some (r.analyzer.analyzeFiles cancelled r.root r.files ⟨d, r.now, []⟩)
  | .pooled cpus moves => r.analyzer.scheduled? cpus moves r.root r.files ⟨d, r.now, []⟩

/-- The report of a run. -/
def report? (r : Run) (d : Disk) : Option ProjectReport := (r.result? d).map (·.1)

/-- The disk after a run. -/
def disk (r : Run) (d : Disk) : Disk := ((r.result? d).map (·.2.disk)).getD d

/-- The same run without a cache. -/
def uncached (r : Run) : Run := { r with analyzer := { r.analyzer with cache := .off } }

end Run

/-- What happens to a cache and its directory. -/
inductive Event where
  | run (r : Run)
  | clear (c : Cache)
  | invalidate (c : Cache) (key : String)
  /-- Something else leaves the disk like this. -/
  | other (d : Disk)

namespace Event

/-- The disk after an event. -/
def disk (d : Disk) : Event → Disk
  | run r => r.disk d
  | clear c => c.clear d
  | invalidate c key =>
    match c.invalidate d key with
    | .ok d => d
    | .error _ => d
  | other d => d

/-- The same event without a cache. -/
def uncached : Event → Event
  | run r => run r.uncached
  | e => e

end Event

/-- The reports of the runs of a history, in order. -/
def reports : Disk → List Event → List (Option ProjectReport)
  | _, [] => []
  | d, .run r :: events => r.report? d :: reports (r.disk d) events
  | d, e :: events => reports (e.disk d) events

/-! ## One run -/

/-- The number of workers that take the files. -/
def Pace.workers (a : Analyzer) : Pace → Nat
  | inTurn _ => 1
  | pooled cpus _ => a.workers cpus

/-- The moves that take a number of files. -/
def Pace.moves (count : Nat) : Pace → List Move
  | inTurn true => [.cancel, .giveUp]
  | inTurn false => sequential 0 count
  | pooled _ moves => moves

/-- What becomes of the files of a run on a pool. -/
def Run.schedule? (r : Run) (d : Disk) : Option (List (Outcome FileError FileResult) × RunState) :=
  Batch.schedule? (r.pace.workers r.analyzer) (r.analyzer.job r.root)
    (r.pace.moves (sortStrings r.files).length) (sortStrings r.files) ⟨d, r.now, []⟩

/-- Every run is one of a pool. -/
theorem Run.result?_eq (r : Run) (d : Disk) : r.result? d = (r.schedule? d).map (Analyzer.conclude r.root) := by
  obtain ⟨a, root, files, now, pace⟩ := r
  cases pace with
  | pooled cpus moves => rfl
  | inTurn cancelled =>
    cases cancelled with
    | true =>
      simp only [Run.schedule?, Pace.moves, Pace.workers, schedule?_given_up]
      rfl
    | false =>
      simp only [Run.schedule?, Pace.moves, Pace.workers, schedule?_sequential Nat.one_pos]
      rfl

theorem Run.report?_eq (r : Run) (d : Disk) :
    r.report? d = ((r.schedule? d).map Prod.fst).map (ProjectReport.ofOutcomes r.root) := by
  rw [Run.report?, Run.result?_eq, Option.map_map, Option.map_map]
  rfl

/-- The cache of a run, its settings and its contents are among those in use. -/
structure Run.Within (settings : Set Config) (contents : Set Bytes) (dir : String) (r : Run) : Prop where
  dir : r.analyzer.cache.enabled = true → r.analyzer.cache.dir = dir
  settings : r.analyzer.config ∈ settings
  contents : ∀ path ∈ r.files, ∀ content, r.analyzer.content path = .ok content → content ∈ contents

section Run

variable (hash : NoCollision settings contents) {r : Run} (hr : r.Within settings contents dir)
include hash hr

theorem Run.Within.job {path : String} (hpath : path ∈ sortStrings r.files) {s : RunState}
    (hs : Genuine settings contents dir s.disk) :
    (r.analyzer.job r.root path s).1 = r.analyzer.answer r.root path ∧
      Genuine settings contents dir (r.analyzer.job r.root path s).2.disk :=
  Analyzer.job_transparent hash hr.dir hr.settings (hr.contents path (mem_sortStrings.mp hpath)) hs

variable {d : Disk} (hd : Genuine settings contents dir d)
include hd

theorem Run.genuine_disk : Genuine settings contents dir (r.disk d) := by
  rw [Run.disk, Run.result?_eq, Option.map_map]
  cases hrun : r.schedule? d with
  | none => exact hd
  | some o =>
    refine (schedule?_sound (I := fun s => Genuine settings contents dir s.disk) ?_ hd hrun).2.1
    exact fun path hpath s hs => (hr.job hash hpath hs).2

/-- **A run that starts with a genuine directory** has the report that it has without a cache. -/
theorem Run.report?_uncached (d' : Disk) : r.report? d = r.uncached.report? d' := by
  have hoff : ∀ path (t : RunState),
      (r.uncached.analyzer.job r.root path t).1 = r.analyzer.answer r.root path := fun path t =>
    Analyzer.job_off (a := r.uncached.analyzer) rfl r.root path t
  have houtcomes : (r.schedule? d).map Prod.fst = (r.uncached.schedule? d').map Prod.fst := by
    refine schedule?_congr (I := fun s => Genuine settings contents dir s.disk) (J := fun _ => True)
      ?_ (fun _ _ _ _ => trivial) ?_ hd trivial
    · exact fun path hpath s hs => (hr.job hash hpath hs).2
    · exact fun path hpath s t hs _ => (hr.job hash hpath hs).1.trans (hoff path t).symm
  rw [Run.report?_eq, Run.report?_eq, houtcomes]
  rfl

end Run

/-! ## Every history -/

/-- The settings of the runs of a history. -/
def settingsOf (events : List Event) : Set Config := {cfg | ∃ r, .run r ∈ events ∧ r.analyzer.config = cfg}

/-- The contents of the files of the runs of a history. -/
def contentsOf (events : List Event) : Set Bytes :=
  {content | ∃ r, .run r ∈ events ∧ ∃ path ∈ r.files, r.analyzer.content path = .ok content}

/-- Nothing but the runs of a history adds entry files to a directory. -/
def Undisturbed (dir : String) : Disk → List Event → Prop
  | _, [] => True
  | d, .other d' :: events => (∀ raw, Holds dir d' raw → Holds dir d raw) ∧ Undisturbed dir d' events
  | d, e :: events => Undisturbed dir (e.disk d) events

theorem reports_of_genuine (hash : NoCollision settings contents) {d d' : Disk} {events : List Event}
    (hruns : ∀ r, .run r ∈ events → r.Within settings contents dir) (hother : Undisturbed dir d events)
    (hd : Genuine settings contents dir d) : reports d events = reports d' (events.map Event.uncached) := by
  induction events generalizing d d' with
  | nil => rfl
  | cons e events ih =>
    have hrest : ∀ r, .run r ∈ events → r.Within settings contents dir := fun r hr =>
      hruns r (List.mem_cons_of_mem e hr)
    cases e with
    | run r =>
      have hr := hruns r List.mem_cons_self
      rw [List.map_cons, Event.uncached, reports, reports, r.report?_uncached hash hr hd d']
      exact congrArg (_ :: ·) (ih hrest hother (r.genuine_disk hash hr hd))
    | clear c => exact ih hrest hother fun raw hold => hd raw (holds_of_clear hold)
    | invalidate c key =>
      refine ih hrest hother fun raw hold => hd raw ?_
      rw [Event.disk] at hold
      split at hold
      case h_1 d₁ hinvalidate => exact holds_of_invalidate hinvalidate hold
      case h_2 => exact hold
    | other d₁ => exact ih hrest hother.2 fun raw hold => hd raw (hother.1 raw hold)

/-- **Cache transparency.** Runs that share a directory which starts without entries give the reports that
they give without a cache, whatever else happens to the directory, as long as nothing else adds entries
and the hashes do not collide. -/
theorem reports_uncached (dir : String) (d d' : Disk) (events : List Event)
    (hempty : ∀ raw, ¬ Holds dir d raw)
    (hshared : ∀ r, .run r ∈ events → r.analyzer.cache.enabled = true → r.analyzer.cache.dir = dir)
    (hother : Undisturbed dir d events) (hash : NoCollision (settingsOf events) (contentsOf events)) :
    reports d events = reports d' (events.map Event.uncached) := by
  refine reports_of_genuine hash (fun r hr => ?_) hother fun raw hold => absurd hold (hempty raw)
  exact
    { dir := hshared r hr
      settings := ⟨r, hr, rfl⟩
      contents := fun path hpath content hcontent => ⟨r, hr, path, hpath, hcontent⟩ }

/-- Settings without symbols and modules. -/
def Config.spare (complexity : Int) : Config :=
  { Config.default with thresholds := ⟨10, 15, complexity⟩, symbols := ⟨none, none⟩, modules := none }

/-- A run over one file with a cache. -/
def Run.single (text : String) (complexity : Int) (pace : Pace) : Run :=
  { analyzer := ⟨.spare complexity, Source.ofTexts [("a.js", Bytes.ofString text)], ⟨true, "/c", 24⟩⟩
    root := ""
    files := ["a.js"]
    now := 0
    pace := pace }

/-- The text and the settings change, and the cache is cleared in between. -/
def editHistory : List Event :=
  [.run (.single "f()" 0 (.inTurn false)), .run (.single "f()" 0 (.pooled 1 (sequential 0 1))),
   .run (.single "f()" 1 (.inTurn false)), .clear ⟨true, "/c", 24⟩, .run (.single "g()" 0 (.inTurn false))]

/-- An empty directory for entries. -/
def emptyCacheDisk : Disk := ⟨.dir [("c", .dir [])], "/"⟩

theorem not_holds_emptyCacheDisk (raw : Bytes) : ¬ Holds "/c" emptyCacheDisk raw := by
  rintro ⟨key, hread, -⟩
  obtain ⟨place, -, hfile⟩ := Disk.read_eq_ok_iff.mp hread
  have hempty : ∀ rest t, Node.at? rest (.dir []) ≠ some (.file t) := by
    rintro (_ | ⟨name, rest⟩) t h <;> cases h
  cases place with
  | nil => cases hfile
  | cons name rest =>
    rw [emptyCacheDisk, Node.at?, Node.child?, Dict.lookup_cons_eq] at hfile
    split_ifs at hfile
    · exact hempty rest raw hfile
    · cases hfile

theorem content_single (text : String) (complexity : Int) (pace : Pace) :
    (Run.single text complexity pace).analyzer.content "a.js" = .ok (Bytes.ofString text) := rfl

/-- The runs of the history differ in text and settings by two values each. -/
theorem mem_editHistory {r : Run} (h : .run r ∈ editHistory) :
    r.files = ["a.js"] ∧ r.analyzer.cache.dir = "/c" ∧
    (r.analyzer.config = .spare 0 ∨ r.analyzer.config = .spare 1) ∧
    (r.analyzer.content "a.js" = .ok (Bytes.ofString "f()") ∨
      r.analyzer.content "a.js" = .ok (Bytes.ofString "g()")) := by
  simp only [editHistory, List.mem_cons, Event.run.injEq, List.not_mem_nil, or_false, reduceCtorEq,
    false_or] at h
  obtain rfl | rfl | rfl | rfl := h <;> simp [content_single] <;> simp [Run.single]

theorem noCollision_editHistory : NoCollision (settingsOf editHistory) (contentsOf editHistory) where
  settings := by
    have hsub : settingsOf editHistory ⊆ {.spare 0, .spare 1} := by
      rintro cfg ⟨r, hr, rfl⟩
      exact (mem_editHistory hr).2.2.1
    refine Set.InjOn.mono (Set.image_mono hsub) ?_
    rw [Set.image_pair, Set.injOn_pair]
    exact fun h => absurd h (by decide +kernel)
  contents := by
    have hsub : contentsOf editHistory ⊆ {Bytes.ofString "f()", Bytes.ofString "g()"} := by
      rintro content ⟨r, hr, path, hpath, hcontent⟩
      obtain ⟨hfiles, -, -, htext⟩ := mem_editHistory hr
      rw [hfiles, List.mem_singleton] at hpath
      rw [hpath] at hcontent
      rw [hcontent, Except.ok.injEq, Except.ok.injEq] at htext
      exact htext
    refine Set.InjOn.mono hsub ?_
    rw [Set.injOn_pair]
    exact fun h => absurd h (by decide +kernel)

theorem reports_uncached_editHistory :
    NoCollision (settingsOf editHistory) (contentsOf editHistory) ∧
      reports emptyCacheDisk editHistory = reports emptyCacheDisk (editHistory.map Event.uncached) :=
  ⟨noCollision_editHistory,
    reports_uncached "/c" emptyCacheDisk emptyCacheDisk editHistory not_holds_emptyCacheDisk
      (fun _ hr _ => (mem_editHistory hr).2.1) trivial noCollision_editHistory⟩

end ScriptSplit
